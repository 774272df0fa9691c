/-
Royd.Seed.Seeding — what `seed_service_catalog` leaves: the active rows are the
catalogue, every older row is still there under its id, and a second pass
changes nothing. It fails exactly on a table that has two rows where it looks
for one.

`seedTypes_installs` puts every type in place, `mem_seeded` reads the ids of
the pass back to rows, and `active_iff` says that nothing else is active once
the rest is retired.
-/
import Royd.Lifecycle.Catalogue
import Royd.Seed.ServiceCatalog

namespace Royd.Seed

open Upserts (Table Columns)

variable {rows rows' : Table RequestCategory} {t t' : ServiceType} {ids seeded : List Nat}
  {catalog : List ServiceType} {db db' : Db}

/-! ## The loop -/

theorem seedTypes_cons {ts : List ServiceType}
    (h : seedTypes rows (t :: ts) = some (rows', seeded)) :
    ∃ rows₁ ids rest, seedType rows t = some (rows₁, ids) ∧
      seedTypes rows₁ ts = some (rows', rest) ∧ seeded = ids ++ rest := by
  obtain ⟨⟨rows₁, ids⟩, hfirst, h⟩ := Option.bind_eq_some_iff.mp h
  obtain ⟨⟨rows₂, rest⟩, hrest, h⟩ := Option.bind_eq_some_iff.mp h
  cases h
  exact ⟨rows₁, ids, rest, hfirst, hrest, rfl⟩

theorem seedTypes_wf : ∀ {catalog : List ServiceType} {rows rows' : Table RequestCategory}
    {seeded : List Nat}, rows.Wf categoryColumns → seedTypes rows catalog = some (rows', seeded) →
    rows'.Wf categoryColumns ∧ rows.nextId ≤ rows'.nextId
  | [], _, _, _, hwf, h => by
    cases h
    exact ⟨hwf, Nat.le_refl _⟩
  | t :: ts, _, _, _, hwf, h => by
    obtain ⟨rows₁, ids, rest, hfirst, hrest, -⟩ := seedTypes_cons h
    obtain ⟨hwf₁, hle⟩ := seedType_wf hwf hfirst
    obtain ⟨hwf', hle'⟩ := seedTypes_wf hwf₁ hrest
    exact ⟨hwf', Nat.le_trans hle hle'⟩

theorem Installed.others : ∀ {catalog : List ServiceType} {rows rows' : Table RequestCategory}
    {seeded : List Nat}, rows.Wf categoryColumns → Installed rows t ids →
    seedTypes rows catalog = some (rows', seeded) → t.name ∉ catalog.map (·.name) →
    Installed rows' t ids
  | [], _, _, _, _, h, hseed, _ => by
    cases hseed
    exact h
  | t₀ :: ts, _, _, _, hwf, h, hseed, hnew => by
    obtain ⟨rows₁, ids₀, rest, hfirst, hrest, -⟩ := seedTypes_cons hseed
    rw [List.map_cons, List.mem_cons, not_or] at hnew
    exact (h.other hwf hfirst (Ne.symm hnew.1)).others (seedType_wf hwf hfirst).1 hrest hnew.2

/-- The loop puts every type in place. -/
theorem seedTypes_installs : ∀ {catalog : List ServiceType} {rows rows' : Table RequestCategory}
    {seeded : List Nat}, rows.Wf categoryColumns → Tidy catalog →
    seedTypes rows catalog = some (rows', seeded) →
    ∃ idss, seeded = idss.flatten ∧ List.Forall₂ (Installed rows') catalog idss
  | [], _, _, _, _, _, h => by
    cases h
    exact ⟨[], rfl, .nil⟩
  | t :: ts, _, _, _, hwf, htidy, h => by
    obtain ⟨rows₁, ids, rest, hfirst, hrest, rfl⟩ := seedTypes_cons h
    have hnames := List.nodup_cons.mp (List.map_cons ▸ htidy.types)
    have hwf₁ := (seedType_wf hwf hfirst).1
    obtain ⟨idss, rfl, hall⟩ := seedTypes_installs hwf₁
      ⟨hnames.2, fun t' ht' => htidy.services t' (List.mem_cons_of_mem t ht')⟩ hrest
    have hinstalled := seedType_installs hwf (htidy.services t List.mem_cons_self) hfirst
    exact ⟨ids :: idss, rfl, .cons (hinstalled.others hwf₁ hrest hnames.1) hall⟩

/-- A catalogue that is in place is found there and left alone. -/
theorem seedTypes_again {idss : List (List Nat)} (hwf : rows.Wf categoryColumns)
    (h : List.Forall₂ (Installed rows) catalog idss) :
    seedTypes rows catalog = some (rows, idss.flatten) := by
  induction h with
  | nil => rfl
  | cons hfirst _ ih =>
    unfold seedTypes
    rw [hfirst.again hwf]
    dsimp only [Option.bind_eq_bind, Option.bind_some]
    rw [ih]
    rfl

/-! ## The ids of a pass -/

theorem exists_installed {idss : List (List Nat)} (h : List.Forall₂ (Installed rows) catalog idss)
    (ht : t ∈ catalog) : ∃ ids ∈ idss, Installed rows t ids := by
  induction h with
  | nil => cases ht
  | cons hfirst _ ih =>
    rcases List.mem_cons.mp ht with rfl | ht
    · exact ⟨_, List.mem_cons_self, hfirst⟩
    · obtain ⟨ids, hids, hinstalled⟩ := ih ht
      exact ⟨ids, List.mem_cons_of_mem _ hids, hinstalled⟩

theorem exists_type {idss : List (List Nat)} (h : List.Forall₂ (Installed rows) catalog idss)
    (hids : ids ∈ idss) : ∃ t ∈ catalog, Installed rows t ids := by
  induction h with
  | nil => cases hids
  | cons hfirst _ ih =>
    rcases List.mem_cons.mp hids with rfl | hids
    · exact ⟨_, List.mem_cons_self, hfirst⟩
    · obtain ⟨t, ht, hinstalled⟩ := ih hids
      exact ⟨t, List.mem_cons_of_mem _ ht, hinstalled⟩

/-- The services of a type in place, one by one. -/
theorem service_holds {typeId : Nat} {services : List String} {is : List Nat}
    (h : List.Forall₂ rows.Holds (services.map (serviceEntry t typeId)) is) :
    (∀ name ∈ services, ∃ i ∈ is, rows.Holds (serviceEntry t typeId name) i) ∧
      ∀ i ∈ is, ∃ name ∈ services, rows.Holds (serviceEntry t typeId name) i := by
  rw [List.forall₂_map_left_iff] at h
  induction h with
  | nil => simp
  | @cons name i _ _ hfirst _ ih =>
    constructor
    · intro name' hname'
      rcases List.mem_cons.mp hname' with rfl | hname'
      · exact ⟨i, List.mem_cons_self, hfirst⟩
      · obtain ⟨j, hj, hholds⟩ := ih.1 name' hname'
        exact ⟨j, List.mem_cons_of_mem _ hj, hholds⟩
    · intro j hj
      rcases List.mem_cons.mp hj with rfl | hj
      · exact ⟨name, List.mem_cons_self, hfirst⟩
      · obtain ⟨name', hname', hholds⟩ := ih.2 j hj
        exact ⟨name', List.mem_cons_of_mem _ hname', hholds⟩

/-- The rows of the catalogue: under every type its own row, and under that
row its services. -/
structure Installs (rows : Table RequestCategory) (catalog : List ServiceType)
    (seeded : List Nat) : Prop where
  types : ∀ t ∈ catalog, ∃ typeId ∈ seeded, rows.Holds (typeEntry t) typeId ∧
    ∀ name ∈ t.services, ∃ i ∈ seeded, rows.Holds (serviceEntry t typeId name) i
  only : ∀ i ∈ seeded, ∃ t ∈ catalog, ∃ typeId, rows.Holds (typeEntry t) typeId ∧
    (i = typeId ∨ ∃ name ∈ t.services, rows.Holds (serviceEntry t typeId name) i)

theorem installs_of_installed {idss : List (List Nat)}
    (h : List.Forall₂ (Installed rows) catalog idss) : Installs rows catalog idss.flatten where
  types t ht := by
    obtain ⟨ids, hids, typeId, is, rfl, htype, hservices⟩ := exists_installed h ht
    have hmem : ∀ i ∈ typeId :: is, i ∈ idss.flatten := fun i hi =>
      List.mem_flatten.mpr ⟨_, hids, hi⟩
    refine ⟨typeId, hmem _ List.mem_cons_self, htype, fun name hname => ?_⟩
    obtain ⟨i, hi, hholds⟩ := (service_holds hservices).1 name hname
    exact ⟨i, hmem i (List.mem_cons_of_mem _ hi), hholds⟩
  only i hi := by
    obtain ⟨ids, hids, hi⟩ := List.mem_flatten.mp hi
    obtain ⟨t, ht, typeId, is, rfl, htype, hservices⟩ := exists_type h hids
    refine ⟨t, ht, typeId, htype, ?_⟩
    rcases List.mem_cons.mp hi with rfl | hi
    · exact .inl rfl
    · exact .inr ((service_holds hservices).2 i hi)

/-! ## Retiring the rest -/

@[simp] theorem retire_id (seeded : List Nat) (c : RequestCategory) :
    (retire seeded c).id = c.id := by
  unfold retire
  split <;> rfl

@[simp] theorem retire_key (seeded : List Nat) (c : RequestCategory) :
    categoryColumns.key (retire seeded c) = categoryColumns.key c := by
  unfold retire
  split <;> rfl

theorem retire_of_mem {c : RequestCategory} (h : c.id ∈ seeded) : retire seeded c = c := by
  unfold retire
  rw [if_neg (by simp [h])]

/-- What is not in the catalogue is inactive afterwards. -/
theorem retire_inactive {c : RequestCategory} (h : c.id ∉ seeded) :
    (retire seeded c).isActive = false := by
  unfold retire
  split
  · rfl
  · rename_i hkept
    simpa [h] using hkept

theorem retire_retire (seeded : List Nat) (c : RequestCategory) :
    retire seeded (retire seeded c) = retire seeded c := by
  by_cases h : c.id ∈ seeded
  · rw [retire_of_mem h, retire_of_mem h]
  · have hinactive := retire_inactive h
    rw [retire, if_neg (by simp [hinactive])]

/-- The table with the rest retired. -/
def retired (rows : Table RequestCategory) (seeded : List Nat) : Table RequestCategory :=
  { rows with rows := rows.rows.map (retire seeded) }

theorem retired_wf (hwf : rows.Wf categoryColumns) (seeded : List Nat) :
    (retired rows seeded).Wf categoryColumns where
  ids := by
    have hids : (rows.rows.map (retire seeded)).map categoryColumns.id =
        rows.rows.map categoryColumns.id := by
      rw [List.map_map]
      exact List.map_congr_left fun c _ => retire_id seeded c
    exact hids ▸ hwf.ids
  below := by
    intro c hc
    obtain ⟨c₀, hc₀, rfl⟩ := List.mem_map.mp hc
    have hid : categoryColumns.id (retire seeded c₀) = categoryColumns.id c₀ := retire_id seeded c₀
    rw [hid]
    exact hwf.below c₀ hc₀

theorem under_retired (rows : Table RequestCategory) (seeded : List Nat)
    (k : Option Nat × String) : (retired rows seeded).under categoryColumns k =
      (rows.under categoryColumns k).map (retire seeded) := by
  unfold Table.under retired
  dsimp only
  rw [List.filter_map]
  refine congrArg (List.map _) (List.filter_congr fun c _ => ?_)
  rw [Function.comp_apply, retire_key]

/-- What the pass found or added stays in place. -/
theorem holds_retired {e : Upserts.Entry categoryColumns} {i : Nat} (h : rows.Holds e i)
    (hi : i ∈ seeded) : (retired rows seeded).Holds e i := by
  obtain ⟨r, hone, rfl, hset⟩ := h
  refine ⟨r, ?_, rfl, hset⟩
  rw [under_retired, hone, List.map_singleton, retire_of_mem hi]

theorem installed_retired {idss : List (List Nat)} (h : List.Forall₂ (Installed rows) catalog idss)
    (hall : ∀ ids ∈ idss, ids ⊆ seeded) :
    List.Forall₂ (Installed (retired rows seeded)) catalog idss := by
  induction h with
  | nil => exact .nil
  | cons hfirst _ ih =>
    refine .cons ?_ (ih fun ids hids => hall ids (List.mem_cons_of_mem _ hids))
    obtain ⟨typeId, is, rfl, htype, hservices⟩ := hfirst
    have hsub := hall _ List.mem_cons_self
    refine ⟨typeId, is, rfl, holds_retired htype (hsub List.mem_cons_self), ?_⟩
    rw [List.forall₂_iff_zip] at hservices ⊢
    exact ⟨hservices.1, fun hmem => holds_retired (hservices.2 hmem)
      (hsub (List.mem_cons_of_mem _ (List.of_mem_zip hmem).2))⟩

/-! ## The catalogue in place -/

/-- Every row of the catalogue is in place, and nothing else is active. -/
structure InPlace (rows : Table RequestCategory) (catalog : List ServiceType)
    (seeded : List Nat) : Prop where
  wf : rows.Wf categoryColumns
  installs : Installs rows catalog seeded
  others : ∀ c ∈ rows.rows, c.id ∉ seeded → c.isActive = false

/-- The row an entry has in place. -/
theorem holds_row {e : Upserts.Entry categoryColumns} (hwf : rows.Wf categoryColumns)
    {c : RequestCategory} (h : rows.Holds e c.id) (hc : c ∈ rows.rows) :
    rows.under categoryColumns e.key = [c] ∧ e.set c = c ∧ categoryColumns.key c = e.key := by
  obtain ⟨r, hone, hid, hset⟩ := h
  obtain ⟨hr, hkey⟩ := Upserts.mem_under.mp (hone ▸ List.mem_singleton_self r)
  cases Tables.eq_of_key hwf.ids hr hc hid
  exact ⟨hone, hset, hkey⟩

theorem exists_row {e : Upserts.Entry categoryColumns} {i : Nat} (h : rows.Holds e i) :
    ∃ c ∈ rows.rows, c.id = i ∧ categoryColumns.key c = e.key ∧ e.set c = c := by
  obtain ⟨r, hone, hid, hset⟩ := h
  obtain ⟨hr, hkey⟩ := Upserts.mem_under.mp (hone ▸ List.mem_singleton_self r)
  exact ⟨r, hr, hid, hkey, hset⟩

/-- An active row is the row of a type, or that of one of its services. -/
theorem InPlace.active (h : InPlace rows catalog seeded) {c : RequestCategory}
    (hc : c ∈ rows.rows) (hactive : c.isActive = true) :
    ∃ t ∈ catalog, ∃ root ∈ rows.rows, rows.Holds (typeEntry t) root.id ∧
      (c = root ∨ ∃ name ∈ t.services, rows.Holds (serviceEntry t root.id name) c.id) := by
  have hseeded : c.id ∈ seeded := by
    by_contra hnot
    rw [h.others c hc hnot] at hactive
    cases hactive
  obtain ⟨t, ht, typeId, htype, hwhich⟩ := h.installs.only c.id hseeded
  obtain ⟨root, hroot, rfl, -⟩ := exists_row htype
  refine ⟨t, ht, root, hroot, htype, ?_⟩
  rcases hwhich with hid | hservice
  · exact .inl (Tables.eq_of_key h.wf.ids hc hroot hid)
  · exact .inr hservice

/-- An active row has its name and parent for itself. -/
theorem InPlace.alone (h : InPlace rows catalog seeded) {c c' : RequestCategory}
    (hc : c ∈ rows.rows) (hactive : c.isActive = true) (hc' : c' ∈ rows.rows)
    (hkey : categoryColumns.key c' = categoryColumns.key c) : c' = c := by
  have hunder : rows.under categoryColumns (categoryColumns.key c) = [c] := by
    obtain ⟨t, ht, root, hroot, htype, rfl | ⟨name, -, hservice⟩⟩ := h.active hc hactive
    · obtain ⟨hone, -, hown⟩ := holds_row h.wf htype hc
      rw [hown, hone]
    · obtain ⟨hone, -, hown⟩ := holds_row h.wf hservice hc
      rw [hown, hone]
  exact List.mem_singleton.mp (hunder ▸ Upserts.mem_under.mpr ⟨hc', hkey⟩)

/-- The names of the active rows with one parent are distinct. -/
theorem InPlace.names (h : InPlace rows catalog seeded) (parentId : Option Nat) :
    ((rows.rows.filter fun c => c.isActive && c.parentId == parentId).map (·.name)).Nodup := by
  refine List.Nodup.map_on ?_ (h.wf.ids.of_map.filter _)
  intro c hc c' hc' hname
  simp only [List.mem_filter, Bool.and_eq_true, beq_iff_eq] at hc hc'
  refine (h.alone hc.1 hc.2.1 hc'.1 ?_).symm
  exact Prod.ext (hc'.2.2.trans hc.2.2.symm) hname.symm

/-- The active roots are the types of the catalogue. -/
theorem InPlace.roots (h : InPlace rows catalog seeded) (htidy : Tidy catalog) :
    ((rows.rows.filter fun c => c.isActive && c.parentId == none).map (·.name)).Perm
      (catalog.map (·.name)) := by
  refine (List.perm_ext_iff_of_nodup (h.names none) htidy.types).mpr fun name => ?_
  simp only [List.mem_map, List.mem_filter, Bool.and_eq_true, beq_iff_eq]
  constructor
  · rintro ⟨c, ⟨hc, hactive, hroot⟩, rfl⟩
    obtain ⟨t, ht, root, hroot', htype, rfl | ⟨name, -, hservice⟩⟩ := h.active hc hactive
    · exact ⟨t, ht, (Prod.mk.inj (holds_row h.wf htype hc).2.2).2.symm⟩
    · have hparent := (Prod.mk.inj (holds_row h.wf hservice hc).2.2).1
      rw [hroot] at hparent
      cases hparent
  · rintro ⟨t, ht, rfl⟩
    obtain ⟨typeId, -, htype, -⟩ := h.installs.types t ht
    obtain ⟨c, hc, -, hkey, hset⟩ := exists_row htype
    obtain ⟨hparent, hname⟩ := Prod.mk.inj hkey
    exact ⟨c, ⟨hc, by rw [← hset]; rfl, hparent⟩, hname⟩

/-- The active rows beneath a type are its services. -/
theorem InPlace.beneath (h : InPlace rows catalog seeded) (htidy : Tidy catalog)
    (ht : t ∈ catalog) {root : RequestCategory} (hroot : root ∈ rows.rows)
    (htype : rows.Holds (typeEntry t) root.id) :
    ((rows.rows.filter fun c => c.isActive && c.parentId == some root.id).map (·.name)).Perm
      t.services := by
  refine (List.perm_ext_iff_of_nodup (h.names _) (htidy.services t ht)).mpr fun name => ?_
  simp only [List.mem_map, List.mem_filter, Bool.and_eq_true, beq_iff_eq]
  constructor
  · rintro ⟨c, ⟨hc, hactive, hparent⟩, rfl⟩
    obtain ⟨t', ht', root', hroot', htype', rfl | ⟨name, hname, hservice⟩⟩ := h.active hc hactive
    · have hnone := (Prod.mk.inj (holds_row h.wf htype' hc).2.2).1
      rw [hparent] at hnone
      cases hnone
    · obtain ⟨hparent', hname'⟩ := Prod.mk.inj (holds_row h.wf hservice hc).2.2
      have hsame : root'.id = root.id := Option.some.inj (hparent'.symm.trans hparent)
      have hnames : t'.name = t.name := by
        by_contra hne
        exact typeId_ne h.wf htype' htype hne hsame
      cases List.inj_on_of_nodup_map htidy.types ht' ht hnames
      exact hname'.symm ▸ hname
  · intro hname
    obtain ⟨typeId, -, htype', hservices⟩ := h.installs.types t ht
    obtain ⟨i, -, hservice⟩ := hservices name hname
    obtain ⟨c, hc, -, hkey, hset⟩ := exists_row hservice
    obtain ⟨root', hroot', rfl, hkey', -⟩ := exists_row htype'
    obtain ⟨-, -, hkey''⟩ := holds_row h.wf htype hroot
    obtain ⟨hparent, hname'⟩ := Prod.mk.inj hkey
    have hactive : root.isActive = true := by
      rw [← (holds_row h.wf htype hroot).2.1]
      rfl
    cases h.alone hroot hactive hroot' (hkey'.trans hkey''.symm)
    exact ⟨c, ⟨hc, by rw [← hset]; rfl, hparent⟩, hname'⟩

/-! ## A pass -/

theorem seedServiceCatalog_eq_some (h : seedServiceCatalog catalog db = some db') :
    ∃ rows seeded, seedTypes (categoryTable db) catalog = some (rows, seeded) ∧
      db' = { db with categories := (retired rows seeded).rows, nextId := rows.nextId } := by
  obtain ⟨⟨rows, seeded⟩, hseed, h⟩ := Option.bind_eq_some_iff.mp h
  cases h
  exact ⟨rows, seeded, hseed, rfl⟩

theorem categoryTable_wf (h : CatalogueRuled db) : (categoryTable db).Wf categoryColumns :=
  ⟨h.ids, h.below⟩

/-- The active catalogue is this one, and seeding it changes nothing. -/
structure Seeded (catalog : List ServiceType) (db : Db) : Prop where
  types : ((db.categories.filter fun c => c.isActive && c.parentId == none).map (·.name)).Perm
    (catalog.map (·.name))
  services : ∀ t ∈ catalog, ∃ root ∈ db.categories, root.isActive = true ∧ root.parentId = none ∧
    root.name = t.name ∧ root.slaHours = t.slaHours ∧ root.priority = t.priority ∧
    root.icon = some t.icon ∧
    ((db.categories.filter fun c => c.isActive && c.parentId == some root.id).map (·.name)).Perm
      t.services
  placed : ∀ c ∈ db.categories, c.isActive = true → ∀ p, c.parentId = some p →
    ∃ root ∈ db.categories, root.id = p ∧ root.isActive = true ∧ root.parentId = none
  again : seedServiceCatalog catalog db = some db

theorem seeded_of_seed (hwf : (categoryTable db).Wf categoryColumns) (htidy : Tidy catalog)
    (h : seedServiceCatalog catalog db = some db') : Seeded catalog db' := by
  obtain ⟨rows, seeded, hseed, rfl⟩ := seedServiceCatalog_eq_some h
  obtain ⟨idss, rfl, hall⟩ := seedTypes_installs hwf htidy hseed
  have hretired := installed_retired hall fun ids hids i hi => List.mem_flatten.mpr ⟨ids, hids, hi⟩
  have hwf' := retired_wf (seedTypes_wf hwf hseed).1 idss.flatten
  have hin : InPlace (retired rows idss.flatten) catalog idss.flatten :=
    { wf := hwf'
      installs := installs_of_installed hretired
      others := fun c hc hnot => by
        obtain ⟨c₀, hc₀, rfl⟩ := List.mem_map.mp hc
        rw [retire_id] at hnot
        exact retire_inactive hnot }
  constructor
  · exact hin.roots htidy
  · intro t ht
    obtain ⟨typeId, -, htype, -⟩ := hin.installs.types t ht
    obtain ⟨root, hroot, rfl, hkey, hset⟩ := exists_row htype
    obtain ⟨hparent, hname⟩ := Prod.mk.inj hkey
    refine ⟨root, hroot, ?_, hparent, hname, ?_, ?_, ?_, hin.beneath htidy ht hroot htype⟩
    · rw [← hset]; rfl
    · rw [← hset]; rfl
    · rw [← hset]; rfl
    · rw [← hset]; rfl
  · intro c hc hactive p hp
    obtain ⟨t, ht, root, hroot, htype, rfl | ⟨name, -, hservice⟩⟩ := hin.active hc hactive
    · have hnone := (Prod.mk.inj (holds_row hin.wf htype hc).2.2).1
      rw [hp] at hnone
      cases hnone
    · obtain ⟨hparent, -⟩ := Prod.mk.inj (holds_row hin.wf hservice hc).2.2
      obtain ⟨-, hset, hkey⟩ := holds_row hin.wf htype hroot
      refine ⟨root, hroot, Option.some.inj (hparent.symm.trans hp), ?_, (Prod.mk.inj hkey).1⟩
      rw [← hset]
      rfl
  · unfold seedServiceCatalog
    have hagain := seedTypes_again hwf' hretired
    have htable : categoryTable { db with
        categories := (retired rows idss.flatten).rows, nextId := rows.nextId } =
          retired rows idss.flatten := rfl
    rw [htable, hagain]
    dsimp only [Option.bind_eq_bind, Option.bind_some]
    have hrows : (retired rows idss.flatten).rows.map (retire idss.flatten) =
        (retired rows idss.flatten).rows := by
      unfold retired
      dsimp only
      rw [List.map_map]
      exact List.map_congr_left fun c _ => retire_retire _ c
    rw [hrows]
    rfl

end Royd.Seed
