/-
Royd.Lifecycle.Catalogue — the catalogue along runs of the whole system: its
rows keep two levels, whatever fields an update sends and whoever is
deactivated in between.

`Recatalogued` says once what a step does to the catalogue: nothing, one
new row, or one row replaced. Every part of the invariant is read off it.
-/
import Royd.Lib.Tables
import Royd.Lifecycle.Runs
import Royd.Services.CategoryTree

namespace Royd

open Api

variable {cfg : Settings} {db db' : Db} {now : Int}

/-! ## An update as the session sees it -/

/-- `apply_category_update` on the object of the session: what it answers,
and the object as it leaves it. The fields are assigned before some of them
are checked, so an update that is refused can leave an object that is not
what is committed. -/
def applyInPlace (db : Db) (cat : RequestCategory) (payload : CategoryUpdate) :
    Except Exc Unit × RequestCategory :=
  match checkMove db cat payload.parentId with
  | .error e => (.error e, cat)
  | .ok _ =>
    let assigned := setFields cat payload
    match checkLeaf assigned with
    | .error e => (.error e, assigned)
    | .ok _ =>
      if payload.assigneeId.isSome then
        (checkAssignee db assigned.routing assigned.assigneeId, assigned)
      else if assigned.routing ≠ .generalManager then
        (.ok (), { assigned with assigneeId := none })
      else (.ok (), assigned)

/-- A session of `get_db` around a handler: what it flushed is committed if
it returns, and rolled back if it raises. -/
def inSession (db : Db) (body : Except Exc Unit × Db) : Except Exc Unit × Db :=
  match body with
  | (.ok u, flushed) => (.ok u, flushed)
  | (.error e, _) => (.error e, db)

/-- `update_category`: what it answers, and what is committed. -/
def updateCategory (db : Db) (categoryId : Nat) (payload : CategoryUpdate) :
    Except Exc Unit × Db :=
  inSession db <| match categoryOf db categoryId with
    | .error e => (.error e, db)
    | .ok cat =>
      let (answer, left) := applyInPlace db cat payload
      (answer, db.putCategory left)

/-- The update that is accepted is `applyCategoryUpdate`. -/
theorem applyInPlace_eq (db : Db) (cat : RequestCategory) (payload : CategoryUpdate) :
    applyCategoryUpdate db cat payload
      = (applyInPlace db cat payload).1.map fun _ => (applyInPlace db cat payload).2 := by
  unfold applyCategoryUpdate applyInPlace
  cases checkMove db cat payload.parentId with
  | error e => rfl
  | ok _ =>
    dsimp only [bind, Except.bind]
    cases checkLeaf (setFields cat payload) with
    | error e => rfl
    | ok _ =>
      dsimp only [settleAssignee]
      split
      · rfl
      · split
        · rfl
        · rfl

/-- An update that is refused leaves every committed row as it was; one that
is accepted commits what the step of the system does. -/
theorem updateCategory_eq (cfg : Settings) (db : Db) (now : Int) (categoryId : Nat)
    (payload : CategoryUpdate) :
    (updateCategory db categoryId payload).2
      = step cfg db ⟨now, .catalogue (.update categoryId payload)⟩ := by
  unfold updateCategory step
  dsimp only [Step.apply, CatalogueEdit.apply]
  cases categoryOf db categoryId with
  | error e => rfl
  | ok cat =>
    dsimp only [bind, Except.bind]
    rw [applyInPlace_eq]
    rcases applyInPlace db cat payload with ⟨_ | _, left⟩
    · rfl
    · rfl

/-! ## The rules -/

/-- The row is a root, or its parent is one. -/
def RequestCategory.Placed (cats : List RequestCategory) (cat : RequestCategory) : Prop :=
  ∀ id, cat.parentId = some id → ∃ parent ∈ cats, parent.id = id ∧ parent.parentId = none

/-- An assignee is chosen for general issues only. -/
def RequestCategory.Routed (cat : RequestCategory) : Prop :=
  cat.assigneeId.isSome = true → cat.routing = .generalManager

/-- A row as the admin rules leave it. -/
structure RequestCategory.Ruled (cats : List RequestCategory) (cat : RequestCategory) : Prop where
  placed : cat.Placed cats
  answerable : cat.Answerable
  routed : cat.Routed

theorem parentRequestType_eq_ok {parentId : Nat} {moving : Option RequestCategory}
    {parent : RequestCategory} (h : parentRequestType db parentId moving = .ok parent) :
    parent ∈ db.categories ∧ parent.id = parentId ∧ parent.parentId = none := by
  unfold parentRequestType at h
  split at h
  · cases h
  split at h
  · cases h
  rename_i found hfound
  split at h
  · cases h
  rename_i hroot
  cases h
  obtain ⟨hmem, hid⟩ := Tables.find?_mem hfound
  exact ⟨hmem, hid, by simpa using hroot⟩

theorem checkAssignee_eq_ok {routing : ServiceRouting} {assigneeId : Option Nat} {u : Unit}
    (h : checkAssignee db routing assigneeId = .ok u) (hsome : assigneeId.isSome = true) :
    routing = .generalManager := by
  unfold checkAssignee at h
  split at h
  · cases hsome
  split at h
  · cases h
  · rename_i hrouting
    exact not_not.mp hrouting

/-- A move that passes keeps the level, and names a root. -/
theorem checkMove_eq_ok {cat : RequestCategory} {payload : CategoryUpdate} {u : Unit}
    (h : checkMove db cat payload.parentId = .ok u) (hcat : cat.Placed db.categories) :
    (setFields cat payload).parentId.isSome = cat.parentId.isSome ∧
      (setFields cat payload).Placed db.categories := by
  unfold checkMove at h
  unfold RequestCategory.Placed setFields
  cases hsent : payload.parentId with
  | none => exact ⟨rfl, hcat⟩
  | some newParent =>
    rw [hsent] at h
    dsimp only at h ⊢
    split at h
    · cases h
    rename_i hlevel
    rw [not_not] at hlevel
    cases newParent with
    | none =>
      refine ⟨?_, fun id hid => by cases hid⟩
      cases hparent : cat.parentId with
      | none => rfl
      | some _ => simp [hparent] at hlevel
    | some id =>
      dsimp only at h
      cases hparent : parentRequestType db id (some cat) with
      | error e =>
        rw [hparent] at h
        cases h
      | ok parent =>
        obtain ⟨hmem, hid, hroot⟩ := parentRequestType_eq_ok hparent
        refine ⟨?_, fun id' hid' => ⟨parent, hmem, ?_, hroot⟩⟩
        · cases hparent : cat.parentId with
          | none => simp [hparent] at hlevel
          | some _ => rfl
        · cases hid'
          exact hid

theorem settleAssignee_eq_ok {cat cat' : RequestCategory} {sent : Bool}
    (h : settleAssignee db cat sent = .ok cat') :
    cat'.Routed ∧ cat'.id = cat.id ∧ cat'.parentId = cat.parentId := by
  unfold settleAssignee at h
  split at h
  · cases hcheck : checkAssignee db cat.routing cat.assigneeId with
    | error e =>
      rw [hcheck] at h
      cases h
    | ok u =>
      rw [hcheck] at h
      cases h
      exact ⟨checkAssignee_eq_ok hcheck, rfl, rfl⟩
  split at h
  · cases h
    exact ⟨fun hsome => absurd hsome Bool.false_ne_true, rfl, rfl⟩
  · rename_i hgeneral
    cases h
    exact ⟨fun _ => not_not.mp hgeneral, rfl, rfl⟩

/-- An update that is accepted leaves a row by the rules, on the level it had. -/
theorem applyCategoryUpdate_ruled {cat cat' : RequestCategory} {payload : CategoryUpdate}
    (h : applyCategoryUpdate db cat payload = .ok cat') (hcat : cat.Placed db.categories) :
    cat'.Ruled db.categories ∧ cat'.id = cat.id ∧
      cat'.parentId.isSome = cat.parentId.isSome := by
  have hanswerable := applyCategoryUpdate_answerable h
  obtain ⟨_, hmove, h⟩ := bind_eq_ok.mp h
  obtain ⟨_, -, h⟩ := bind_eq_ok.mp h
  obtain ⟨hlevel, hplaced⟩ := checkMove_eq_ok hmove hcat
  obtain ⟨hrouted, hid, hparent⟩ := settleAssignee_eq_ok h
  refine ⟨⟨?_, hanswerable, hrouted⟩, hid, by rw [hparent, hlevel]⟩
  intro id hsome
  rw [hparent] at hsome
  exact hplaced id hsome

/-- A row that is built is by the rules. -/
theorem buildCategory_ruled {data : CategoryCreate} (h : buildCategory db data = .ok db') :
    ∃ cat : RequestCategory, cat.id = db.nextId ∧ cat.Ruled db.categories ∧
      db' = { db with nextId := db.nextId + 1, categories := db.categories ++ [cat] } := by
  unfold buildCategory at h
  split at h
  · cases h
    refine ⟨_, rfl, ⟨?_, ?_, ?_⟩, rfl⟩
    · intro id hid
      cases hid
    · intro hleaf
      cases hleaf
    · intro hsome
      cases hsome
  · obtain ⟨parent, hparent, h⟩ := bind_eq_ok.mp h
    obtain ⟨_, hauto, h⟩ := bind_eq_ok.mp h
    obtain ⟨_, hassignee, h⟩ := bind_eq_ok.mp h
    cases h
    obtain ⟨hmem, -, hroot⟩ := parentRequestType_eq_ok hparent
    refine ⟨_, rfl, ⟨?_, ?_, ?_⟩, rfl⟩
    · intro id hid
      cases hid
      exact ⟨parent, hmem, rfl, hroot⟩
    · intro _ hrouting
      dsimp only at hrouting ⊢
      rw [clean_getD, blank_strip]
      exact checkAutoReply_visible hauto hrouting
    · exact checkAssignee_eq_ok hassignee

/-! ## What a step does to the catalogue -/

/-- Nothing, a new row by the rules, or one row that is put by the rules on
the level it had. -/
inductive Recatalogued (db db' : Db) : Prop where
  | same (categories : db'.categories = db.categories) (nextId : db.nextId ≤ db'.nextId)
  | added (cat : RequestCategory) (id : cat.id = db.nextId) (ruled : cat.Ruled db.categories)
      (categories : db'.categories = db.categories ++ [cat]) (nextId : db.nextId < db'.nextId)
  | put (cat cat' : RequestCategory) (row : cat ∈ db.categories) (id : cat'.id = cat.id)
      (ruled : cat.Ruled db.categories → cat'.Ruled db.categories)
      (level : cat.Placed db.categories → cat'.parentId.isSome = cat.parentId.isSome)
      (categories : db'.categories = (db.putCategory cat').categories)
      (nextId : db.nextId ≤ db'.nextId)

theorem catalogueEdit_recatalogues {edit : CatalogueEdit} (h : edit.apply cfg db now = .ok db') :
    Recatalogued db db' := by
  cases edit with
  | create data =>
    obtain ⟨cat, hid, hruled, rfl⟩ := buildCategory_ruled h
    exact .added cat hid hruled rfl (Nat.lt_succ_self _)
  | update categoryId payload =>
    obtain ⟨cat, hcat, h⟩ := bind_eq_ok.mp h
    obtain ⟨cat', hupdate, h⟩ := bind_eq_ok.mp h
    cases h
    have hkeeps := fun hplaced => applyCategoryUpdate_ruled hupdate hplaced
    refine .put cat cat' (categoryOf_mem hcat) ?_ (fun hruled => (hkeeps hruled.placed).1)
      (fun hplaced => (hkeeps hplaced).2.2) rfl le_rfl
    obtain ⟨_, _, hsettle⟩ := bind_eq_ok.mp hupdate
    obtain ⟨_, _, hsettle⟩ := bind_eq_ok.mp hsettle
    exact (settleAssignee_eq_ok hsettle).2.1
  | deactivate categoryId =>
    obtain ⟨cat, hcat, h⟩ := bind_eq_ok.mp h
    cases h
    exact .put cat { cat with isActive := false } (categoryOf_mem hcat) rfl
      (fun hruled => ⟨hruled.placed, hruled.answerable, hruled.routed⟩) (fun _ => rfl) rfl le_rfl
  | addFile categoryId upload userId =>
    obtain ⟨cat, _, h⟩ := bind_eq_ok.mp h
    unfold addAutoReplyFile at h
    split at h
    · cases h
    split at h
    · cases h
    split at h
    · cases h
    · cases h
      exact .same rfl (Nat.le_succ _)
  | removeFile categoryId fileId =>
    obtain ⟨cat, _, h⟩ := bind_eq_ok.mp h
    unfold removeAutoReplyFile at h
    split at h
    · cases h
    · cases h
      exact .same rfl le_rfl

/-- The sweep commits one notice after another. -/
theorem sweepLoop_catalogue (cfg : Settings) (now : Int) : ∀ (candidates : List Request) (db : Db),
    (candidates.foldl (fun db req => db.finish (sweepOne cfg db req now)) db).categories
        = db.categories ∧
      db.nextId ≤ (candidates.foldl (fun db req => db.finish (sweepOne cfg db req now)) db).nextId
  | [], _ => ⟨rfl, le_rfl⟩
  | r :: rest, db => by
    obtain ⟨hcategories, hnext⟩ := sweepLoop_catalogue cfg now rest (db.finish (sweepOne cfg db r now))
    exact ⟨hcategories, (nextId_le_finish ..).trans hnext⟩

/-- A filing that is inserted leaves the catalogue alone. -/
theorem insertFiling_catalogue (db : Db) (f : Filing) :
    (insertFiling db f).categories = db.categories ∧ db.nextId ≤ (insertFiling db f).nextId := by
  unfold insertFiling
  cases f.sync with
  | none => exact ⟨rfl, Nat.le_max_left _ _⟩
  | some sync => exact ⟨rfl, (Nat.le_max_left _ _).trans (Nat.le_max_left _ _)⟩

theorem step_recatalogues (cfg : Settings) (db : Db) (e : Event) :
    Recatalogued db (step cfg db e) := by
  unfold step
  cases happly : e.step.apply cfg db e.now with
  | error _ => exact .same rfl le_rfl
  | ok db' =>
    dsimp only
    cases hstep : e.step with
    | create userId data key trackingNo =>
      rw [hstep] at happly
      obtain ⟨student, -, rfl | ⟨req, session, -, rfl⟩⟩ := runCreate_eq_ok happly
      · exact .same rfl le_rfl
      · exact .same (insertFiling_catalogue db _).1 (insertFiling_catalogue db _).2
    | clientCreate client profile data key trackingNo =>
      rw [hstep] at happly
      obtain ⟨sync, -, rfl | ⟨req, session, -, rfl⟩⟩ := runClientCreate_eq_ok happly
      · exact .same rfl le_rfl
      · exact .same (insertFiling_catalogue db _).1 (insertFiling_catalogue db _).2
    | call c =>
      rw [hstep] at happly
      obtain ⟨w, _, happly⟩ := bind_eq_ok.mp happly
      cases happly
      exact .same rfl (nextId_le_finish ..)
    | sweep useLock won =>
      rw [hstep] at happly
      cases happly
      unfold sweepSlaDeadlines
      split
      · exact .same rfl le_rfl
      · exact .same (sweepLoop_catalogue ..).1 (sweepLoop_catalogue ..).2
    | catalogue edit =>
      rw [hstep] at happly
      exact catalogueEdit_recatalogues happly
    | people users departments faculties studentGroups =>
      rw [hstep] at happly
      cases happly
      exact .same rfl le_rfl

/-! ## The invariant -/

/-- Ids tell the rows apart, and every row is by the rules. -/
structure CatalogueRuled (db : Db) : Prop where
  ids : (db.categories.map (·.id)).Nodup
  below : ∀ cat ∈ db.categories, cat.id < db.nextId
  ruled : ∀ cat ∈ db.categories, cat.Ruled db.categories

/-- Every row is still there, on the level it had. -/
def LevelsKept (db db' : Db) : Prop :=
  ∀ cat ∈ db.categories, ∃ cat' ∈ db'.categories,
    cat'.id = cat.id ∧ cat'.parentId.isSome = cat.parentId.isSome

theorem LevelsKept.refl (db : Db) : LevelsKept db db := fun cat hcat => ⟨cat, hcat, rfl, rfl⟩

theorem LevelsKept.trans {db₁ db₂ db₃ : Db} (h : LevelsKept db₁ db₂) (h' : LevelsKept db₂ db₃) :
    LevelsKept db₁ db₃ := by
  intro cat hcat
  obtain ⟨cat', hcat', hid, hlevel⟩ := h cat hcat
  obtain ⟨cat'', hcat'', hid', hlevel'⟩ := h' cat' hcat'
  exact ⟨cat'', hcat'', hid'.trans hid, hlevel'.trans hlevel⟩

/-- Roots that stay keep the rows below them in their place. -/
theorem RequestCategory.Placed.mono {cats cats' : List RequestCategory} {cat : RequestCategory}
    (h : cat.Placed cats) (hkept : ∀ c ∈ cats, ∃ c' ∈ cats', c'.id = c.id ∧
      c'.parentId.isSome = c.parentId.isSome) : cat.Placed cats' := by
  intro id hid
  obtain ⟨parent, hparent, rfl, hroot⟩ := h id hid
  obtain ⟨parent', hparent', hid', hlevel⟩ := hkept parent hparent
  refine ⟨parent', hparent', hid', ?_⟩
  rw [hroot] at hlevel
  exact Option.isSome_eq_false_iff.mp hlevel |> Option.isNone_iff_eq_none.mp

theorem putCategory_ids (db : Db) (cat : RequestCategory) :
    (db.putCategory cat).categories.map (·.id) = db.categories.map (·.id) :=
  Tables.update_keys fun _ _ => rfl

/-- A step keeps the rows on their levels. -/
theorem Recatalogued.levels (h : Recatalogued db db') (hdb : CatalogueRuled db) :
    LevelsKept db db' := by
  intro c hc
  cases h with
  | same categories nextId =>
    rw [categories]
    exact ⟨c, hc, rfl, rfl⟩
  | added cat id ruled categories nextId =>
    rw [categories]
    exact ⟨c, List.mem_append_left _ hc, rfl, rfl⟩
  | put cat cat' row id ruled level categories nextId =>
    rw [categories]
    refine ⟨if c.id = cat'.id then cat' else c, List.mem_map.mpr ⟨c, hc, rfl⟩, ?_⟩
    split
    · rename_i heq
      obtain rfl := Tables.eq_of_key hdb.ids hc row (heq.trans id)
      exact ⟨id, level (hdb.ruled c row).placed⟩
    · exact ⟨rfl, rfl⟩

/-- A step keeps the rows by the rules. -/
theorem Recatalogued.ruled (h : Recatalogued db db') (hdb : CatalogueRuled db) :
    CatalogueRuled db' := by
  have hlevels := h.levels hdb
  have hmoved : ∀ cat : RequestCategory, cat.Ruled db.categories → cat.Ruled db'.categories :=
    fun cat hcat => ⟨hcat.placed.mono hlevels, hcat.answerable, hcat.routed⟩
  cases h with
  | same categories nextId =>
    refine ⟨by rw [categories]; exact hdb.ids, fun c hc => ?_, fun c hc => hmoved c (hdb.ruled c ?_)⟩
    · exact (hdb.below c (categories ▸ hc)).trans_le nextId
    · rwa [← categories]
  | added cat id ruled categories nextId =>
    refine ⟨?_, fun c hc => ?_, fun c hc => hmoved c ?_⟩
    · rw [categories]
      exact Tables.nodup_concat hdb.ids fun c hc => id ▸ (hdb.below c hc).ne
    · rw [categories] at hc
      rcases List.mem_append.mp hc with hc | hc
      · exact (hdb.below c hc).trans nextId
      · rw [List.mem_singleton.mp hc, id]
        exact nextId
    · rw [categories] at hc
      rcases List.mem_append.mp hc with hc | hc
      · exact hdb.ruled c hc
      · rw [List.mem_singleton.mp hc]
        exact ruled
  | put cat cat' row id ruled level categories nextId =>
    have hids : db'.categories.map (·.id) = db.categories.map (·.id) := by
      rw [categories, putCategory_ids]
    refine ⟨by rw [hids]; exact hdb.ids, fun c hc => ?_, fun c hc => hmoved c ?_⟩
    · have hmem : c.id ∈ db.categories.map (·.id) := hids ▸ List.mem_map_of_mem hc
      obtain ⟨c₀, hc₀, heq⟩ := List.mem_map.mp hmem
      rw [← heq]
      exact (hdb.below c₀ hc₀).trans_le nextId
    · rw [categories] at hc
      rcases Tables.mem_update hc with ⟨_, -, -, rfl⟩ | ⟨hc, -⟩
      · exact ruled (hdb.ruled cat row)
      · exact hdb.ruled c hc

theorem step_ruled (cfg : Settings) (db : Db) (e : Event) (h : CatalogueRuled db) :
    CatalogueRuled (step cfg db e) :=
  (step_recatalogues cfg db e).ruled h

/-- From a catalogue by the rules, every run leads to one. -/
theorem run_ruled (cfg : Settings) (h : CatalogueRuled db) (es : List Event) :
    CatalogueRuled (Runs.run (step cfg) db es) :=
  Runs.run_invariant (step_ruled cfg) h es

theorem run_levels (cfg : Settings) (h : CatalogueRuled db) (es : List Event) :
    LevelsKept db (Runs.run (step cfg) db es) :=
  Runs.run_relates LevelsKept.refl LevelsKept.trans (step_ruled cfg)
    (fun db e hdb => (step_recatalogues cfg db e).levels hdb) h es

theorem ruled_empty (h : db.categories = []) : CatalogueRuled db := by
  refine ⟨by simp [h], fun cat hcat => ?_, fun cat hcat => ?_⟩
  · rw [h] at hcat
    cases hcat
  · rw [h] at hcat
    cases hcat

/-! ## The law -/

/-- What the admin rules promise of a catalogue. -/
structure CatalogueLaw (db : Db) : Prop where
  twoLevels : ∀ cat ∈ db.categories, ∀ id, cat.parentId = some id →
    ∃ parent ∈ db.categories, parent.id = id ∧ parent.parentId = none
  answered : ∀ cat ∈ db.categories, cat.parentId.isSome = true → cat.routing = .autoReply →
    blank (cat.autoReplyText.getD "") = false
  assigned : ∀ cat ∈ db.categories, cat.parentId.isSome = true → cat.assigneeId.isSome = true →
    cat.routing = .generalManager

theorem CatalogueRuled.law (h : CatalogueRuled db) : CatalogueLaw db where
  twoLevels cat hcat := (h.ruled cat hcat).placed
  answered cat hcat := (h.ruled cat hcat).answerable
  assigned cat hcat _ := (h.ruled cat hcat).routed

/-- The session of an update that is refused is rolled back. -/
theorem updateCategory_refused {categoryId : Nat} {payload : CategoryUpdate} {exc : Exc}
    (h : (updateCategory db categoryId payload).1 = .error exc) :
    (updateCategory db categoryId payload).2 = db := by
  unfold updateCategory inSession at h ⊢
  split at h
  · cases h
  · rfl

/-- An update that is refused leaves the committed rows as they were. -/
def RefusedLeaves (cfg : Settings) (db : Db) (e : Event) : Prop :=
  ∀ categoryId payload exc, e.step = .catalogue (.update categoryId payload) →
    (updateCategory db categoryId payload).1 = .error exc → step cfg db e = db

theorem refusedLeaves (cfg : Settings) (db : Db) (e : Event) : RefusedLeaves cfg db e := by
  intro categoryId payload exc hstep hrefused
  have hcommitted := updateCategory_eq cfg db e.now categoryId payload
  rw [updateCategory_refused hrefused, ← hstep] at hcommitted
  exact hcommitted.symm

/-- From an empty catalogue, every run of the system keeps the law of the
catalogue; no row leaves its level or disappears, and an update that is
refused changes nothing. -/
theorem catalogue_law (cfg : Settings) {db₀ : Db} (hempty : db₀.categories = [])
    (es : List Event) :
    CatalogueLaw (Runs.run (step cfg) db₀ es) ∧
      (∀ es', LevelsKept (Runs.run (step cfg) db₀ es) (Runs.run (step cfg) db₀ (es ++ es'))) ∧
      Runs.Along (step cfg) (RefusedLeaves cfg) db₀ es := by
  have hruled := run_ruled cfg (ruled_empty hempty) es
  refine ⟨hruled.law, fun es' => ?_, ?_⟩
  · rw [Runs.run_append]
    exact run_levels cfg hruled es'
  · exact Runs.along_iff_forall.mpr fun _ _ _ _ => refusedLeaves cfg _ _

/-- A catalogue from nothing: a type, a service of each route, an update that
takes one off general issues and two that are refused. -/
def catalogueEdits : List Event :=
  [⟨0, .catalogue (.create { name := "Hujjatlar" })⟩,
    ⟨1, .catalogue (.create { parentId := some 1, name := "Ma'lumotnoma", routing := .autoReply
                              autoReplyText := some "Tayyor" })⟩,
    ⟨2, .catalogue (.create { parentId := some 1, name := "Ariza", routing := .generalManager })⟩,
    ⟨3, .catalogue (.update 3 { routing := some (some .facultyManager) })⟩,
    ⟨4, .catalogue (.update 2 { autoReplyText := some none })⟩,
    ⟨5, .catalogue (.update 2 { parentId := some none })⟩]

theorem catalogue_law_edits :
    CatalogueLaw (Runs.run (step {}) {} catalogueEdits) ∧
      (∀ es', LevelsKept (Runs.run (step {}) {} catalogueEdits)
        (Runs.run (step {}) {} (catalogueEdits ++ es'))) ∧
      Runs.Along (step {}) (RefusedLeaves {}) {} catalogueEdits :=
  catalogue_law {} rfl catalogueEdits

/-! ## What is offered and what can be filed -/

section Offered

open Catalogue (categoryTree categoryRows mem_categoryRows mem_roots mem_childrenOf)

variable {collate : String → String → Bool}

/-- The tree lists the service beneath this root. -/
def OffersUnder (tree : Catalogue.Tree) (service root : Nat) : Prop :=
  root ∈ tree.roots ∧ service ∈ tree.childrenOf root

instance (tree : Catalogue.Tree) (service root : Nat) : Decidable (OffersUnder tree service root) :=
  inferInstanceAs (Decidable (_ ∧ _))

/-- The service resolves to its own row. -/
def Resolves (db : Db) (service : Nat) (serviceTypeId : Option Nat) : Prop :=
  ∃ row, db.getCategory service = some row ∧ resolveService db service serviceTypeId = .ok row

theorem mem_activeRows {r : RequestCategory} :
    r ∈ categoryRows collate db false ↔ r ∈ db.categories ∧ r.isActive = true := by
  rw [mem_categoryRows]
  simp

theorem CatalogueRuled.getCategory (h : CatalogueRuled db) {r : RequestCategory}
    (hr : r ∈ db.categories) : db.getCategory r.id = some r :=
  Tables.find?_of_mem h.ids hr

/-- What hangs beneath a root, read off the rows. -/
theorem offersUnder_iff (h : CatalogueRuled db) {service root : Nat} :
    OffersUnder (categoryTree collate db false) service root ↔
      ∃ s ∈ db.categories, s.id = service ∧ s.isActive = true ∧ s.parentId = some root ∧
        ∃ r ∈ db.categories, r.id = root ∧ r.isActive = true := by
  unfold OffersUnder
  rw [mem_roots, mem_childrenOf h.ids]
  constructor
  · rintro ⟨-, r, hr, hroot, s, hs, hservice, hparent⟩
    rw [mem_activeRows] at hr hs
    exact ⟨s, hs.1, hservice, hs.2, hparent, r, hr.1, hroot, hr.2⟩
  · rintro ⟨s, hs, hservice, hactive, hparent, r, hr, hroot, hopen⟩
    obtain ⟨r', hr', hid, hlevel⟩ := (h.ruled s hs).placed root hparent
    -- Two levels: the row it names is a root.
    obtain rfl := Tables.eq_of_key h.ids hr hr' (hroot.trans hid.symm)
    have hlisted : r ∈ categoryRows collate db false := mem_activeRows.mpr ⟨hr, hopen⟩
    exact ⟨⟨r, hlisted, hroot, hlevel⟩, r, hlisted, hroot, s,
      mem_activeRows.mpr ⟨hs, hactive⟩, hservice, hparent⟩

variable (collate) in
theorem resolves_iff (h : CatalogueRuled db) {service : Nat} {serviceTypeId : Option Nat} :
    Resolves db service serviceTypeId ↔
      ∃ root, (serviceTypeId = none ∨ serviceTypeId = some root) ∧
        OffersUnder (categoryTree collate db false) service root := by
  unfold Resolves
  simp only [Catalogue.resolveService_iff, offersUnder_iff h]
  constructor
  · rintro ⟨row, hrow, -, hactive, parentId, hparent, parent, hfound, hopen, hsent⟩
    obtain ⟨hmem, hid⟩ := Tables.find?_mem hrow
    obtain ⟨hmem', hid'⟩ := Tables.find?_mem hfound
    rw [hid'] at hsent
    exact ⟨parentId, hsent, row, hmem, hid, hactive, hparent, parent, hmem', hid', hopen⟩
  · rintro ⟨root, hsent, s, hs, rfl, hactive, hparent, r, hr, rfl, hopen⟩
    exact ⟨s, h.getCategory hs, h.getCategory hs, hactive, r.id, hparent, r, h.getCategory hr,
      hopen, hsent⟩

/-- A service hangs beneath one root at most. -/
theorem OffersUnder.unique (h : CatalogueRuled db) {service root root' : Nat}
    (hroot : OffersUnder (categoryTree collate db false) service root)
    (hroot' : OffersUnder (categoryTree collate db false) service root') : root = root' := by
  obtain ⟨s, hs, hid, -, hparent, -⟩ := (offersUnder_iff h).mp hroot
  obtain ⟨s', hs', hid', -, hparent', -⟩ := (offersUnder_iff h).mp hroot'
  obtain rfl := Tables.eq_of_key h.ids hs hs' (hid.trans hid'.symm)
  rw [hparent] at hparent'
  exact Option.some.inj hparent'

theorem roots_nodup (h : CatalogueRuled db) : (categoryTree collate db false).roots.Nodup := by
  rw [Catalogue.categoryTree_roots]
  exact (Catalogue.categoryRows_ids h.ids).sublist (List.filter_sublist.map _)

/-- Nothing hangs beneath a service. -/
theorem childrenOf_service (h : CatalogueRuled db) {service root : Nat}
    (hoffers : OffersUnder (categoryTree collate db false) service root) :
    (categoryTree collate db false).childrenOf service = [] := by
  obtain ⟨s, hs, hid, -, hparent, -⟩ := (offersUnder_iff h).mp hoffers
  refine List.eq_nil_iff_forall_not_mem.mpr fun child hchild => ?_
  obtain ⟨-, -, -, c, hc, -, hnames⟩ := (mem_childrenOf h.ids).mp hchild
  obtain ⟨p, hp, hpid, hlevel⟩ := (h.ruled c (mem_activeRows.mp hc).1).placed service hnames
  obtain rfl := Tables.eq_of_key h.ids hs hp (hid.trans hpid.symm)
  rw [hparent] at hlevel
  cases hlevel

/-- Every place of the tree is a root or hangs beneath one. -/
theorem places_eq (h : CatalogueRuled db) (depth : Nat) :
    (categoryTree collate db false).places (depth + 1)
      = (categoryTree collate db false).roots.flatMap fun root =>
          root :: (categoryTree collate db false).childrenOf root := by
  unfold Catalogue.Tree.places
  refine List.flatMap_congr fun root hroot => ?_
  show root :: List.flatMap _ _ = _
  have hleaf : ∀ child ∈ (categoryTree collate db false).childrenOf root,
      (categoryTree collate db false).below depth child = [child] := fun child hchild => by
    cases depth with
    | zero => rfl
    | succ depth =>
      show child :: List.flatMap _ _ = _
      rw [childrenOf_service h ⟨hroot, hchild⟩, List.flatMap_nil]
  rw [List.flatMap_congr hleaf, List.flatMap_singleton']

/-- No node stands at two places. -/
theorem places_nodup (h : CatalogueRuled db) (depth : Nat) :
    ((categoryTree collate db false).places (depth + 1)).Nodup := by
  have hnotRoot : ∀ {root child}, OffersUnder (categoryTree collate db false) child root →
      child ∉ (categoryTree collate db false).roots := by
    intro root child hoffers hmem
    obtain ⟨s, hs, hid, -, hparent, -⟩ := (offersUnder_iff h).mp hoffers
    obtain ⟨r, hr, hrid, hlevel⟩ := mem_roots.mp hmem
    obtain rfl := Tables.eq_of_key h.ids hs (mem_activeRows.mp hr).1 (hid.trans hrid.symm)
    rw [hparent] at hlevel
    cases hlevel
  rw [places_eq h, List.nodup_flatMap]
  constructor
  · intro root hroot
    refine List.nodup_cons.mpr ⟨fun hmem => hnotRoot ⟨hroot, hmem⟩ hroot, ?_⟩
    obtain ⟨r, hr, rfl, -⟩ := mem_roots.mp hroot
    rw [Catalogue.categoryTree_childrenOf h.ids hr]
    exact (Catalogue.categoryRows_ids h.ids).sublist (List.filter_sublist.map _)
  · refine (roots_nodup h).imp_of_mem fun {root root'} hroot hroot' hne => ?_
    intro id hid hid'
    rcases List.mem_cons.mp hid with rfl | hid
    · rcases List.mem_cons.mp hid' with rfl | hid'
      · exact hne rfl
      · exact hnotRoot ⟨hroot', hid'⟩ hroot
    · rcases List.mem_cons.mp hid' with rfl | hid'
      · exact hnotRoot ⟨hroot, hid⟩ hroot'
      · exact hne (OffersUnder.unique h ⟨hroot, hid⟩ ⟨hroot', hid'⟩)

/-- What the catalogue offers is what can be filed. -/
structure OffersFileable (collate : String → String → Bool) (db : Db) : Prop where
  withType : ∀ service root, OffersUnder (categoryTree collate db false) service root ↔
    Resolves db service (some root)
  withoutType : ∀ service, Resolves db service none ↔
    (categoryTree collate db false).roots.countP
      (fun root => OffersUnder (categoryTree collate db false) service root) = 1
  onePlace : ∀ s ∈ db.categories, s.isActive = true →
    ∀ r ∈ db.categories, r.isActive = true → s.parentId = some r.id →
      ∀ depth, ((categoryTree collate db false).places (depth + 1)).count s.id = 1

theorem CatalogueRuled.offers (h : CatalogueRuled db) : OffersFileable collate db where
  withType service root := by
    rw [resolves_iff collate h]
    constructor
    · exact fun hoffers => ⟨root, .inr rfl, hoffers⟩
    · rintro ⟨root', hsent | hsent, hoffers⟩
      · cases hsent
      · cases hsent
        exact hoffers
  withoutType service := by
    rw [resolves_iff collate h]
    constructor
    · rintro ⟨root, -, hoffers⟩
      rw [← List.count_eq_one_of_mem (roots_nodup h) hoffers.1]
      refine List.countP_congr fun root' _ => ?_
      rw [decide_eq_true_eq, beq_iff_eq]
      constructor
      · exact fun hoffers' => OffersUnder.unique h hoffers' hoffers
      · rintro rfl
        exact hoffers
    · intro hone
      obtain ⟨root, -, hoffers⟩ := List.countP_pos_iff.mp (hone ▸ Nat.one_pos)
      exact ⟨root, .inl rfl, of_decide_eq_true hoffers⟩
  onePlace s hs hactive r hr hopen hparent depth := by
    refine List.count_eq_one_of_mem (places_nodup h depth) ?_
    have hoffers : OffersUnder (categoryTree collate db false) s.id r.id :=
      (offersUnder_iff h).mpr ⟨s, hs, rfl, hactive, hparent, r, hr, rfl, hopen⟩
    rw [places_eq h]
    exact List.mem_flatMap.mpr ⟨r.id, hoffers.1, List.mem_cons_of_mem _ hoffers.2⟩

/-- From an empty catalogue, after every run of the system: the active tree
lists a service beneath a type exactly if the pair can be filed, a service
can be filed without a type exactly if it is listed beneath one root, and an
active service beneath an active type stands at one place. -/
theorem offered_is_fileable (cfg : Settings) (collate : String → String → Bool) {db₀ : Db}
    (hempty : db₀.categories = []) (es : List Event) :
    OffersFileable collate (Runs.run (step cfg) db₀ es) :=
  (run_ruled cfg (ruled_empty hempty) es).offers

theorem offered_is_fileable_edits :
    OffersFileable (fun a b => decide (a ≤ b)) (Runs.run (step {}) {} catalogueEdits) :=
  offered_is_fileable {} _ rfl catalogueEdits

end Offered

end Royd
