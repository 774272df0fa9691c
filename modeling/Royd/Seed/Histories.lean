/-
Royd.Seed.Histories — reseeding a running system. A pass keeps every row under
its id (`Reseeded`) and the rules of the catalogue (`seeded_ruled`), and it
touches no request; so the invariants of the runs of the system hold through
histories in which it is seeded at any time. `seeding_fails_iff` is the exact
table on which a pass raises.
-/
import Royd.Lifecycle.Acts
import Royd.Lifecycle.States
import Royd.Seed.Seeding

namespace Royd.Seed

open Upserts (Table Columns)

variable {rows rows' : Table RequestCategory} {t t' : ServiceType} {ids seeded : List Nat}
  {catalog : List ServiceType} {db db' : Db}

/-! ## The older rows -/

/-- A row after a pass: only what the catalogue says of a type was written to
it, and to a service no more than the active flag. -/
structure Reseeded (c c' : RequestCategory) : Prop where
  row : c' = { c with
    slaHours := c'.slaHours, priority := c'.priority, icon := c'.icon, isActive := c'.isActive }
  tuned : c.parentId.isSome = true → c' = { c with isActive := c'.isActive }

theorem Reseeded.refl (c : RequestCategory) : Reseeded c c := ⟨rfl, fun _ => rfl⟩

theorem Reseeded.trans {a b c : RequestCategory} (h : Reseeded a b) (h' : Reseeded b c) :
    Reseeded a c where
  row := by
    rw [h'.row, h.row]
  tuned hparent := by
    have hparent' : b.parentId.isSome = true := by
      rw [h.row]
      exact hparent
    rw [h'.tuned hparent', h.tuned hparent]

theorem typeEntry_reseeds {c : RequestCategory} (h : categoryColumns.key c = (typeEntry t).key) :
    Reseeded c ((typeEntry t).set c) where
  row := rfl
  tuned hparent := by
    rw [(Prod.mk.inj h).1] at hparent
    cases hparent

theorem retire_reseeds (seeded : List Nat) (c : RequestCategory) :
    Reseeded c (retire seeded c) := by
  unfold retire
  split
  · exact ⟨rfl, fun _ => rfl⟩
  · exact .refl c

theorem seedType_mem (hwf : rows.Wf categoryColumns) (h : seedType rows t = some (rows', ids)) :
    ∀ c ∈ rows.rows, ∃ c' ∈ rows'.rows, Reseeded c c' := by
  obtain ⟨rows₁, typeId, is, hfirst, hrest, -⟩ := seedType_eq_some h
  intro c hc
  obtain ⟨c₁, hc₁, hto⟩ := Upserts.upsert_mem hwf hfirst Reseeded.refl
    (fun c hkey => typeEntry_reseeds hkey) c hc
  have hservices : ∀ e ∈ t.services.map (serviceEntry t typeId), ∀ c : RequestCategory,
      categoryColumns.key c = e.key → Reseeded c (e.set c) := by
    intro e he c _
    obtain ⟨name, -, rfl⟩ := List.mem_map.mp he
    exact ⟨rfl, fun _ => rfl⟩
  obtain ⟨c₂, hc₂, hon⟩ := Upserts.upsertAll_mem Reseeded.refl Reseeded.trans
    (Upserts.upsert_wf hwf hfirst) hrest hservices c₁ hc₁
  exact ⟨c₂, hc₂, hto.trans hon⟩

theorem seedTypes_mem : ∀ {catalog : List ServiceType} {rows rows' : Table RequestCategory}
    {seeded : List Nat}, rows.Wf categoryColumns → seedTypes rows catalog = some (rows', seeded) →
    ∀ c ∈ rows.rows, ∃ c' ∈ rows'.rows, Reseeded c c'
  | [], _, _, _, _, h, c, hc => by
    cases h
    exact ⟨c, hc, .refl c⟩
  | t :: ts, _, _, _, hwf, h, c, hc => by
    obtain ⟨rows₁, ids, rest, hfirst, hrest, -⟩ := seedTypes_cons h
    obtain ⟨c₁, hc₁, hto⟩ := seedType_mem hwf hfirst c hc
    obtain ⟨c₂, hc₂, hon⟩ := seedTypes_mem (seedType_wf hwf hfirst).1 hrest c₁ hc₁
    exact ⟨c₂, hc₂, hto.trans hon⟩

/-- Every row is still there under its id. -/
theorem seeded_mem (hwf : (categoryTable db).Wf categoryColumns)
    (h : seedServiceCatalog catalog db = some db') :
    ∀ c ∈ db.categories, ∃ c' ∈ db'.categories, Reseeded c c' := by
  obtain ⟨rows, seeded, hseed, rfl⟩ := seedServiceCatalog_eq_some h
  intro c hc
  obtain ⟨c', hc', hto⟩ := seedTypes_mem hwf hseed c hc
  exact ⟨_, List.mem_map_of_mem hc', hto.trans (retire_reseeds seeded c')⟩

/-! ## The rules of the catalogue -/

/-- The parent of every row is a root. -/
def Rooted (rows : Table RequestCategory) : Prop :=
  ∀ c ∈ rows.rows, c.Placed rows.rows

/-- The rules of one row that do not look at another. -/
def Own (c : RequestCategory) : Prop := c.Answerable ∧ c.Routed

theorem Own.of_same {c c' : RequestCategory} (h : Own c) (hsame : Reseeded c c') : Own c' := by
  rw [hsame.row]
  exact h

theorem own_new (id : Nat) (parentId : Option Nat) (name : String) (slaHours : Nat)
    (priority : Priority) : Own { id, parentId, name, slaHours, priority } := by
  refine ⟨fun _ hauto => ?_, fun hsome => ?_⟩
  · cases hauto
  · cases hsome

theorem seedType_own (h : seedType rows t = some (rows', ids)) (hown : ∀ c ∈ rows.rows, Own c) :
    ∀ c ∈ rows'.rows, Own c := by
  obtain ⟨rows₁, typeId, is, hfirst, hrest, -⟩ := seedType_eq_some h
  refine Upserts.upsertAll_keep hrest (Upserts.upsert_keep hfirst hown (own_new ..) fun _ h => h)
    ?_ ?_
  · intro e he n
    obtain ⟨name, -, rfl⟩ := List.mem_map.mp he
    exact own_new ..
  · intro e he c hc
    obtain ⟨name, -, rfl⟩ := List.mem_map.mp he
    exact hc

/-- The parents of the rows are among the older roots, or are the row of the
type itself. -/
theorem seedType_rooted (hwf : rows.Wf categoryColumns) (hservices : t.services.Nodup)
    (h : seedType rows t = some (rows', ids)) (hrooted : Rooted rows) : Rooted rows' := by
  obtain ⟨typeId, is, hids, htype, -⟩ := seedType_installs hwf hservices h
  obtain ⟨root, hroot, hid, hkey, -⟩ := exists_row htype
  have hmem := seedType_mem hwf h
  obtain ⟨rows₁, typeId', is', hfirst, hrest, hids'⟩ := seedType_eq_some h
  cases hids.symm.trans hids'
  have hparents : ∀ c ∈ rows'.rows, ∀ p, c.parentId = some p →
      p = typeId ∨ ∃ parent ∈ rows.rows, parent.id = p ∧ parent.parentId = none := by
    have hold : ∀ c ∈ rows.rows, ∀ p, c.parentId = some p →
        p = typeId ∨ ∃ parent ∈ rows.rows, parent.id = p ∧ parent.parentId = none :=
      fun c hc p hp => .inr (hrooted c hc p hp)
    refine Upserts.upsertAll_keep hrest (Upserts.upsert_keep hfirst hold ?_ fun _ h => h) ?_ ?_
    · intro p hp
      cases hp
    · intro e he n p hp
      obtain ⟨name, -, rfl⟩ := List.mem_map.mp he
      exact .inl (Option.some.inj hp).symm
    · intro e he c hc
      obtain ⟨name, -, rfl⟩ := List.mem_map.mp he
      exact hc
  intro c hc p hp
  rcases hparents c hc p hp with rfl | ⟨parent, hparent, rfl, hnone⟩
  · exact ⟨root, hroot, hid, (Prod.mk.inj hkey).1⟩
  · obtain ⟨parent', hparent', hsame⟩ := hmem parent hparent
    rw [hsame.row] at hparent'
    exact ⟨_, hparent', rfl, hnone⟩

theorem seedTypes_ruled : ∀ {catalog : List ServiceType} {rows rows' : Table RequestCategory}
    {seeded : List Nat}, rows.Wf categoryColumns → (∀ t ∈ catalog, t.services.Nodup) →
    seedTypes rows catalog = some (rows', seeded) → Rooted rows → (∀ c ∈ rows.rows, Own c) →
    Rooted rows' ∧ ∀ c ∈ rows'.rows, Own c
  | [], _, _, _, _, _, h, hrooted, hown => by
    cases h
    exact ⟨hrooted, hown⟩
  | t :: ts, _, _, _, hwf, hservices, h, hrooted, hown => by
    obtain ⟨rows₁, ids, rest, hfirst, hrest, -⟩ := seedTypes_cons h
    exact seedTypes_ruled (seedType_wf hwf hfirst).1
      (fun t' ht' => hservices t' (List.mem_cons_of_mem t ht')) hrest
      (seedType_rooted hwf (hservices t List.mem_cons_self) hfirst hrooted)
      (seedType_own hfirst hown)

/-- A pass keeps the rules of the catalogue. -/
theorem seeded_ruled (htidy : Tidy catalog) (hruled : CatalogueRuled db)
    (h : seedServiceCatalog catalog db = some db') : CatalogueRuled db' := by
  have hwf := categoryTable_wf hruled
  obtain ⟨rows, seeded, hseed, rfl⟩ := seedServiceCatalog_eq_some h
  obtain ⟨hrooted, hown⟩ := seedTypes_ruled hwf htidy.services hseed
    (fun c hc => (hruled.ruled c hc).placed)
    (fun c hc => ⟨(hruled.ruled c hc).answerable, (hruled.ruled c hc).routed⟩)
  have hwf' := retired_wf (seedTypes_wf hwf hseed).1 seeded
  refine ⟨hwf'.ids, hwf'.below, fun c hc => ?_⟩
  obtain ⟨c₀, hc₀, rfl⟩ := List.mem_map.mp hc
  have hsame := retire_reseeds seeded c₀
  obtain ⟨hanswerable, hrouted⟩ := (hown c₀ hc₀).of_same hsame
  refine ⟨fun p hp => ?_, hanswerable, hrouted⟩
  rw [hsame.row] at hp
  obtain ⟨parent, hparent, hid, hnone⟩ := hrooted c₀ hc₀ p hp
  refine ⟨_, List.mem_map_of_mem hparent, ?_, ?_⟩
  · rw [retire_id, hid]
  · rw [(retire_reseeds seeded parent).row]
    exact hnone

/-! ## Where a pass raises -/

/-- There are two rows where the pass looks for one: under the name of the
type, or under the name of a service beneath the row of the type. -/
def Ambiguous (rows : Table RequestCategory) (t : ServiceType) : Prop :=
  1 < (rows.under categoryColumns (none, t.name)).length ∨
  ∃ root ∈ rows.under categoryColumns (none, t.name),
    ∃ name ∈ t.services, 1 < (rows.under categoryColumns (some root.id, name)).length

/-- No row is beneath a row that is still to be added. -/
theorem under_new (hwf : rows.Wf categoryColumns) (hrooted : Rooted rows) (name : String) :
    rows.under categoryColumns (some rows.nextId, name) = [] := by
  refine List.filter_eq_nil_iff.mpr fun c hc hkey => ?_
  obtain ⟨parent, hparent, hid, -⟩ := hrooted c hc rows.nextId (Prod.mk.inj (eq_of_beq hkey)).1
  have hlt : parent.id < rows.nextId := hwf.below parent hparent
  rw [hid] at hlt
  exact Nat.lt_irrefl _ hlt

theorem exists_entry {typeId : Nat} {P : Option Nat × String → Prop} :
    (∃ e ∈ t.services.map (serviceEntry t typeId), P e.key) ↔
      ∃ name ∈ t.services, P (some typeId, name) := by
  simp [serviceEntry]

/-- Seeding a type raises on an ambiguous one only. -/
theorem seedType_eq_none (hwf : rows.Wf categoryColumns) (hrooted : Rooted rows)
    (hservices : t.services.Nodup) : seedType rows t = none ↔ Ambiguous rows t := by
  unfold Ambiguous
  cases hfirst : rows.upsert (typeEntry t) with
  | none =>
    have hnone : seedType rows t = none := by
      unfold seedType
      rw [hfirst]
      rfl
    exact iff_of_true hnone (.inl (Upserts.upsert_eq_none.mp hfirst))
  | some done =>
    obtain ⟨rows₁, typeId⟩ := done
    have hone : ¬1 < (rows.under categoryColumns (none, t.name)).length := fun hmany => by
      rw [Upserts.upsert_eq_none.mpr hmany] at hfirst
      cases hfirst
    have hservice := Upserts.upsertAll_eq_none (Upserts.upsert_wf hwf hfirst)
      (service_keys hservices typeId)
    have hsame : ∀ name, rows₁.under categoryColumns (some typeId, name) =
        rows.under categoryColumns (some typeId, name) := fun name =>
      Upserts.under_upsert_other hwf hfirst fun heq => by cases (Prod.mk.inj heq).1
    have hnone : seedType rows t = none ↔
        rows₁.upsertAll (t.services.map (serviceEntry t typeId)) = none := by
      unfold seedType
      rw [hfirst]
      cases hrest : rows₁.upsertAll (t.services.map (serviceEntry t typeId)) <;> simp [hrest]
    rw [hnone, hservice, exists_entry (P := fun k => 1 < (rows₁.under categoryColumns k).length)]
    simp only [hone, false_or, hsame]
    rcases Upserts.upsert_cases hfirst with ⟨r, hfound, rfl, -⟩ | ⟨habsent, rfl, -⟩
    · have hunder : rows.under categoryColumns (none, t.name) = [r] := hfound
      rw [hunder]
      simp [categoryColumns]
    · have hunder : rows.under categoryColumns (none, t.name) = [] := habsent
      simp [hunder, under_new hwf hrooted]

/-- Seeding one type changes nothing about another. -/
theorem Ambiguous.other (hwf : rows.Wf categoryColumns) (h : seedType rows t = some (rows', ids))
    (hne : t.name ≠ t'.name) : Ambiguous rows' t' ↔ Ambiguous rows t' := by
  obtain ⟨rows₁, typeId, is, hfirst, hrest, -⟩ := seedType_eq_some h
  have hwf₁ := Upserts.upsert_wf hwf hfirst
  have hunder : ∀ k : Option Nat × String, k ≠ (none, t.name) → k.1 ≠ some typeId →
      rows'.under categoryColumns k = rows.under categoryColumns k := fun k hk hparent =>
    (Upserts.under_upsertAll_other hwf₁ hrest (service_key hparent)).trans
      (Upserts.under_upsert_other hwf hfirst (Ne.symm hk))
  have hroots : rows'.under categoryColumns (none, t'.name) =
      rows.under categoryColumns (none, t'.name) :=
    hunder _ (fun heq => hne (Prod.mk.inj heq).2.symm) nofun
  -- The row of the other type is not the one that was just seeded.
  have hids : ∀ root ∈ rows.under categoryColumns (none, t'.name), root.id ≠ typeId := by
    intro root hroot hid
    obtain ⟨hmem, hkey⟩ := Upserts.mem_under.mp hroot
    obtain ⟨root', hroot', hsame⟩ := Upserts.upsert_mem hwf hfirst Reseeded.refl
      (fun c hkey => typeEntry_reseeds hkey) root hmem
    obtain ⟨r, hr, hrid, hrkey, -⟩ := exists_row (Upserts.under_upsert hfirst)
    rw [hsame.row] at hroot'
    have heq := Tables.eq_of_key hwf₁.ids hroot' hr (hid.trans hrid.symm)
    rw [← heq] at hrkey
    exact hne ((Prod.mk.inj hrkey).2.symm.trans (Prod.mk.inj hkey).2)
  unfold Ambiguous
  rw [hroots]
  refine or_congr Iff.rfl (exists_congr fun root => and_congr_right fun hroot =>
    exists_congr fun name => and_congr_right fun _ => ?_)
  rw [hunder (some root.id, name) (fun heq => by cases (Prod.mk.inj heq).1) fun heq =>
    hids root hroot (Option.some.inj heq)]

theorem seedTypes_eq_none : ∀ {catalog : List ServiceType} {rows : Table RequestCategory},
    rows.Wf categoryColumns → Rooted rows → Tidy catalog →
    (seedTypes rows catalog = none ↔ ∃ t ∈ catalog, Ambiguous rows t)
  | [], _, _, _, _ => by simp [seedTypes]
  | t :: ts, rows, hwf, hrooted, htidy => by
    have hservices := htidy.services t List.mem_cons_self
    have hnames := List.nodup_cons.mp (List.map_cons ▸ htidy.types)
    rw [List.exists_mem_cons_iff, ← seedType_eq_none hwf hrooted hservices]
    unfold seedTypes
    cases hfirst : seedType rows t with
    | none => simp
    | some done =>
      obtain ⟨rows₁, ids⟩ := done
      have hrest := seedTypes_eq_none (seedType_wf hwf hfirst).1
        (seedType_rooted hwf hservices hfirst hrooted)
        ⟨hnames.2, fun t' ht' => htidy.services t' (List.mem_cons_of_mem t ht')⟩
      have hsame : (∃ t' ∈ ts, Ambiguous rows₁ t') ↔ ∃ t' ∈ ts, Ambiguous rows t' := by
        refine exists_congr fun t' => and_congr_right fun ht' => ?_
        exact Ambiguous.other hwf hfirst fun heq => hnames.1 (heq ▸ List.mem_map_of_mem ht')
      rw [hsame] at hrest
      simp only [Option.bind_eq_bind, Option.bind_some, reduceCtorEq, false_or]
      rw [← hrest]
      cases seedTypes rows₁ ts <;> simp

theorem seeding_fails (htidy : Tidy catalog) (hruled : CatalogueRuled db) :
    seedServiceCatalog catalog db = none ↔ ∃ t ∈ catalog, Ambiguous (categoryTable db) t := by
  rw [← seedTypes_eq_none (categoryTable_wf hruled)
    (fun c hc => (hruled.ruled c hc).placed) htidy]
  unfold seedServiceCatalog
  cases seedTypes (categoryTable db) catalog <;> simp

/-! ## Histories -/

open Api

/-- What happens to the database of a deployment: an event of the system, or
the seed script. -/
inductive Move where
  | event (e : Event)
  | seed
  deriving DecidableEq, Repr

/-- A pass that raises commits nothing. -/
def move (cfg : Settings) (catalog : List ServiceType) (db : Db) : Move → Db
  | .event e => step cfg db e
  | .seed => (seedServiceCatalog catalog db).getD db

/-- Every request is filed under a service that is still a row of the
catalogue, and is sound. -/
structure Settled (db : Db) : Prop where
  wf : db.Wf
  ruled : CatalogueRuled db
  lives : ∀ id l, db.life? id = some l → l.Sound ∧
    ∃ cat ∈ db.categories, cat.id = l.req.categoryId ∧ cat.parentId.isSome = true

variable {cfg : Settings}

/-- Rows that keep their level are still the services of their requests. -/
theorem service_kept {l : Life} (hlevels : LevelsKept db db')
    (h : ∃ cat ∈ db.categories, cat.id = l.req.categoryId ∧ cat.parentId.isSome = true) :
    ∃ cat ∈ db'.categories, cat.id = l.req.categoryId ∧ cat.parentId.isSome = true := by
  obtain ⟨cat, hcat, hid, hleaf⟩ := h
  obtain ⟨cat', hcat', hid', hleaf'⟩ := hlevels cat hcat
  exact ⟨cat', hcat', hid'.trans hid, hleaf'.trans hleaf⟩

theorem Settled.event (h : Settled db) (e : Event) : Settled (step cfg db e) := by
  obtain ⟨hwf, hlife⟩ := step_life cfg h.wf e
  have hlevels := (step_recatalogues cfg db e).levels h.ruled
  refine ⟨hwf, step_ruled cfg db e h.ruled, fun id => ?_⟩
  have hlives : ∀ l, (step cfg db e).life? id = some l → l.Sound ∧
      ∃ cat ∈ db.categories, cat.id = l.req.categoryId ∧ cat.parentId.isSome = true := by
    refine steps_keep (P := fun l => ∀ k, l = some k → k.Sound ∧
      ∃ cat ∈ db.categories, cat.id = k.req.categoryId ∧ cat.parentId.isSome = true)
      (fun {l l'} hstep hl k hk => ?_) (hlife id) (h.lives id)
    refine ⟨step_sound hstep (fun k hk => (hl k hk).1) k hk, ?_⟩
    cases hstep with
    | filed current catalogue filed opening answers announced =>
      cases hk
      obtain ⟨hmem, hid⟩ := Tables.find?_mem filed.service
      exact ⟨_, current ▸ hmem, hid, filed.leaf⟩
    | changed change =>
      cases hk
      obtain ⟨cat, hcat, hid, hleaf⟩ := (hl _ rfl).2
      exact ⟨cat, hcat, hid.trans change.categoryId.symm, hleaf⟩
  intro l hl
  exact ⟨(hlives l hl).1, service_kept hlevels (hlives l hl).2⟩

/-- Every row keeps its level through a pass. -/
theorem seeded_levels (hwf : (categoryTable db).Wf categoryColumns)
    (h : seedServiceCatalog catalog db = some db') : LevelsKept db db' := by
  intro cat hcat
  obtain ⟨cat', hcat', hsame⟩ := seeded_mem hwf h cat hcat
  refine ⟨cat', hcat', ?_⟩
  rw [hsame.row]
  exact ⟨rfl, rfl⟩

/-- A pass touches nothing but the catalogue. -/
theorem seeded_elsewhere (htidy : Tidy catalog) (hruled : CatalogueRuled db)
    (h : seedServiceCatalog catalog db = some db') : db.Elsewhere db' := by
  have hruled' := seeded_ruled htidy hruled h
  have hwf := categoryTable_wf hruled
  obtain ⟨rows, seeded, hseed, rfl⟩ := seedServiceCatalog_eq_some h
  exact ⟨rfl, rfl, rfl, rfl, rfl, (seedTypes_wf hwf hseed).2,
    fun _ cat hcat => (hruled'.ruled cat hcat).answerable⟩

theorem Settled.seed (htidy : Tidy catalog) (h : Settled db)
    (hseed : seedServiceCatalog catalog db = some db') : Settled db' := by
  have helsewhere := seeded_elsewhere htidy h.ruled hseed
  refine ⟨helsewhere.wf h.wf, seeded_ruled htidy h.ruled hseed, fun id l hl => ?_⟩
  rw [helsewhere.life? id] at hl
  obtain ⟨hsound, hservice⟩ := h.lives id l hl
  exact ⟨hsound, service_kept (seeded_levels (categoryTable_wf h.ruled) hseed) hservice⟩

theorem Settled.moved (htidy : Tidy catalog) (h : Settled db) (m : Move) :
    Settled (move cfg catalog db m) ∧ LevelsKept db (move cfg catalog db m) := by
  cases m with
  | event e => exact ⟨h.event e, (step_recatalogues cfg db e).levels h.ruled⟩
  | seed =>
    unfold move
    cases hseed : seedServiceCatalog catalog db with
    | none => exact ⟨h, .refl db⟩
    | some db' => exact ⟨h.seed htidy hseed, seeded_levels (categoryTable_wf h.ruled) hseed⟩

theorem run_settled (cfg : Settings) (htidy : Tidy catalog) (h : Settled db) (ms : List Move) :
    Settled (Runs.run (move cfg catalog) db ms) ∧
      LevelsKept db (Runs.run (move cfg catalog) db ms) := by
  refine Runs.run_invariant (I := fun db' => Settled db' ∧ LevelsKept db db') ?_ ⟨h, .refl db⟩ ms
  intro db' m hdb
  obtain ⟨hsettled, hlevels⟩ : Settled (move cfg catalog db' m) ∧
    LevelsKept db' (move cfg catalog db' m) := hdb.1.moved htidy m
  exact ⟨hsettled, hdb.2.trans hlevels⟩

theorem start_settled (h : Start db) (hempty : db.categories = []) : Settled db where
  wf := h.wf
  ruled := ruled_empty hempty
  lives id l hl := by
    rw [h.life?] at hl
    cases hl

/-- Seeding a running system. From an empty catalogue, after every history of
events and passes of the seed script: a pass raises exactly if it finds two
rows where it looks for one, and one that does not leaves exactly the official
catalogue active and every older row under its id, a service with the settings
it had and a type with all but the three the catalogue sets; a second pass
changes nothing. -/
theorem seeding_installs_the_catalogue (cfg : Settings) {db₀ : Db} (h : Start db₀)
    (hempty : db₀.categories = []) (ms : List Move) :
    (seedServiceCatalog serviceCatalog (Runs.run (move cfg serviceCatalog) db₀ ms) = none ↔
      ∃ t ∈ serviceCatalog,
        Ambiguous (categoryTable (Runs.run (move cfg serviceCatalog) db₀ ms)) t) ∧
    ∀ db', seedServiceCatalog serviceCatalog (Runs.run (move cfg serviceCatalog) db₀ ms) =
        some db' →
      Seeded serviceCatalog db' ∧
      ∀ c ∈ (Runs.run (move cfg serviceCatalog) db₀ ms).categories,
        ∃ c' ∈ db'.categories, Reseeded c c' := by
  have hruled := (run_settled cfg serviceCatalog_tidy (start_settled h hempty) ms).1.ruled
  have hwf := categoryTable_wf hruled
  exact ⟨seeding_fails serviceCatalog_tidy hruled, fun db' hseed =>
    ⟨seeded_of_seed hwf serviceCatalog_tidy hseed, seeded_mem hwf hseed⟩⟩

/-- A faculty with its registrator, before the catalogue is seeded. -/
def registry : Db where
  nextId := 3
  users :=
    [{ id := 1, fullName := "Talaba", role := .student,
       studentProfile := some { facultyId := some 1 } },
     { id := 2, fullName := "Registrator", role := .registrator,
       employeeProfile := some { facultyId := some 1 } }]

theorem registry_start : Start registry :=
  ⟨rfl, rfl, rfl, rfl, rfl, fun cat hcat => by cases hcat⟩

/-- Its first service is seeded, applied for and renamed. -/
def renamed : List Move :=
  [.seed,
    .event ⟨0, .create 1 { categoryId := 4, title := "Ariza", description := "Matn" } none "REQ-1"⟩,
    .event ⟨1, .catalogue (.update 4 { name := some (some "Diplom") })⟩]

theorem seeding_installs_the_catalogue_registry :
    (seedServiceCatalog serviceCatalog (Runs.run (move {} serviceCatalog) registry renamed) = none ↔
      ∃ t ∈ serviceCatalog,
        Ambiguous (categoryTable (Runs.run (move {} serviceCatalog) registry renamed)) t) ∧
    ∀ db', seedServiceCatalog serviceCatalog
        (Runs.run (move {} serviceCatalog) registry renamed) = some db' →
      Seeded serviceCatalog db' ∧
      ∀ c ∈ (Runs.run (move {} serviceCatalog) registry renamed).categories,
        ∃ c' ∈ db'.categories, Reseeded c c' :=
  seeding_installs_the_catalogue {} registry_start rfl renamed

/-- Requests survive the seed script. In every history every request is sound
and its service is still a row of the catalogue beneath a type, whatever was
renamed, retired or seeded again in between. -/
theorem requests_survive_seeding (cfg : Settings) {db₀ : Db} (h : Start db₀)
    (hempty : db₀.categories = []) (ms later : List Move) :
    (∀ req ∈ (Runs.run (move cfg serviceCatalog) db₀ ms).requests,
      ((Runs.run (move cfg serviceCatalog) db₀ ms).lifeOf req).Sound ∧
      ∃ service ∈ (Runs.run (move cfg serviceCatalog) db₀ ms).categories,
        service.id = req.categoryId ∧
        ∃ type ∈ (Runs.run (move cfg serviceCatalog) db₀ ms).categories,
          service.parentId = some type.id ∧ type.parentId = none) ∧
    LevelsKept (Runs.run (move cfg serviceCatalog) db₀ ms)
      (Runs.run (move cfg serviceCatalog) db₀ (ms ++ later)) := by
  have hsettled := (run_settled cfg serviceCatalog_tidy (start_settled h hempty) ms).1
  constructor
  · intro req hreq
    obtain ⟨hsound, service, hservice, hid, hleaf⟩ :=
      hsettled.lives req.id _ (hsettled.wf.life?_mem hreq)
    obtain ⟨p, hp⟩ := Option.isSome_iff_exists.mp hleaf
    obtain ⟨type, htype, rfl, hroot⟩ := (hsettled.ruled.ruled service hservice).placed p hp
    exact ⟨hsound, service, hservice, hid, type, htype, hp, hroot⟩
  · rw [Runs.run_append]
    exact (run_settled cfg serviceCatalog_tidy hsettled later).2

theorem requests_survive_seeding_registry :
    (∀ req ∈ (Runs.run (move {} serviceCatalog) registry renamed).requests,
      ((Runs.run (move {} serviceCatalog) registry renamed).lifeOf req).Sound ∧
      ∃ service ∈ (Runs.run (move {} serviceCatalog) registry renamed).categories,
        service.id = req.categoryId ∧
        ∃ type ∈ (Runs.run (move {} serviceCatalog) registry renamed).categories,
          service.parentId = some type.id ∧ type.parentId = none) ∧
    LevelsKept (Runs.run (move {} serviceCatalog) registry renamed)
      (Runs.run (move {} serviceCatalog) registry (renamed ++ [.seed])) :=
  requests_survive_seeding {} registry_start rfl renamed [.seed]

end Royd.Seed
