/-
Royd.Screens.QueryCache — the tags of `requestsApi.ts`, `statsApi.ts` and the
catalogue part of `adminApi.ts`.

A page reads through a cache. Which results a mutation makes stale is written
by hand, as tags on both sides; `Lib.TaggedCaches` says what the tags must do,
and `pageEndpoints_sound` that they do it: for every mutation and every query
that share no tag, the mutation leaves the answer alone. There is one gap. The
page of a request shows the row of its service, and editing the service makes
no request stale.

This is about one user's own mutations. What others do in the meantime reaches
no tag.
-/
import Royd.Lib.TaggedCaches
import Royd.Lifecycle.FileRows
import Royd.Lifecycle.Reports
import Royd.Screens.RequestActions
import Royd.Screens.ServiceDialog
import Royd.Services.CategoryTree
import Royd.Services.Stats

namespace Royd.Screens

open Api

/-! ## The tags -/

/-- The tags of the endpoints below: `{ type: "Request", id }`, the lists, and
`FILES-${id}`. -/
inductive CacheTag where
  | request (id : Nat)
  | requestList
  | userList
  | dashboard
  | categoryList
  | files (categoryId : Nat)
  deriving DecidableEq, Repr

/-- The queries of the three files. -/
inductive PageQuery where
  | getRequest (id : Nat)
  | listRequests (filters : RequestFilters) (bounds : PageBounds)
  | listAssignees (facultyId : Option Nat)
  | getDashboardStats
  | listCategories
  | listAutoReplyFiles (categoryId : Nat)
  deriving DecidableEq, Repr

/-- `AutoReplyFileOut`. -/
structure AutoReplyFileOut where
  id : Nat
  categoryId : Nat
  fileName : String
  fileSize : Nat
  mimeType : String
  createdAt : Int
  deriving DecidableEq, Repr

/-- What a query returns. -/
def PageQuery.Data : PageQuery → Type
  | .getRequest _ => RequestDetail
  | .listRequests .. => Page RequestSummary
  | .listAssignees _ => List AssigneeOut
  | .getDashboardStats => DashboardStats
  | .listCategories => List CategoryTreeNode
  | .listAutoReplyFiles _ => List AutoReplyFileOut

/-- `providesTags`. -/
def providesTags : (q : PageQuery) → q.Data → List CacheTag
  | .getRequest id, _ => [.request id]
  | .listRequests .., page =>
    (Page.items page).map (fun r => .request r.id) ++ [.requestList]
  | .listAssignees _, _ => [.userList]
  | .getDashboardStats, _ => [.dashboard]
  | .listCategories, _ => [.categoryList]
  | .listAutoReplyFiles id, _ => [.files id]

/-- The mutations of the same files. -/
inductive PageMutation where
  | assignRequest (id : Nat) (data : RequestAssign)
  | transitionRequest (id : Nat) (data : RequestTransition)
  | answerRequest (id : Nat) (text : String) (files : List Upload)
  | createCategory (data : CategoryCreate)
  | updateCategory (id : Nat) (data : CategoryUpdate)
  | deactivateCategory (id : Nat)
  | uploadAutoReplyFile (id : Nat) (file : Upload)
  | deleteAutoReplyFile (id fileId : Nat)
  deriving DecidableEq, Repr

/-- `invalidatesTags`. -/
def invalidatesTags : PageMutation → List CacheTag
  | .assignRequest id _ => [.request id, .requestList, .dashboard]
  | .transitionRequest id _ => [.request id, .requestList, .dashboard]
  | .answerRequest id _ _ => [.request id, .requestList, .dashboard]
  | .createCategory _ => [.categoryList]
  | .updateCategory _ _ => [.categoryList]
  | .deactivateCategory _ => [.categoryList]
  | .uploadAutoReplyFile id _ => [.files id]
  | .deleteAutoReplyFile id _ => [.files id]

/-! ## The server -/

/-- What a mutation asks of the server. -/
def PageMutation.step (userId : Nat) : PageMutation → Step
  | .assignRequest id data => .call (.assign userId id data)
  | .transitionRequest id data => .call (.transition userId id data)
  | .answerRequest id text files => .call (.answer userId id text files)
  | .createCategory data => .catalogue (.create data)
  | .updateCategory id data => .catalogue (.update id data)
  | .deactivateCategory id => .catalogue (.deactivate id)
  | .uploadAutoReplyFile id file => .catalogue (.addFile id file userId)
  | .deleteAutoReplyFile id fileId => .catalogue (.removeFile id fileId)

/-- `AutoReplyFileOut.model_validate`. -/
def autoReplyFileOut (f : AutoReplyFile) : AutoReplyFileOut where
  id := f.id
  categoryId := f.categoryId
  fileName := f.fileName
  fileSize := f.fileSize
  mimeType := f.mimeType
  createdAt := f.createdAt

/-- How the database compares texts. -/
structure Comparing where
  collate : String → String → Bool
  ilike : String → String → Bool

variable (cfg : Settings) (texts : Comparing) (userId : Nat)

/-- The handler of a query. -/
def pageAnswer (o : Stamped) (now : Int) : (q : PageQuery) → Except Exc q.Data
  | .getRequest id => getDetail o.db o.updatedAt now userId id
  | .listRequests filters bounds =>
    Api.listRequests o.db o.updatedAt now texts.ilike userId filters bounds
  | .listAssignees facultyId => listAssignees texts.collate o.db userId facultyId
  | .getDashboardStats => do
    let user ← currentUser o.db userId
    dashboardStats o.db user now
  | .listCategories => do
    let _ ← currentUser o.db userId
    .ok (Catalogue.categoryTree texts.collate o.db false).served
  | .listAutoReplyFiles categoryId => do
    let _ ← requireRoles o.db userId [.admin]
    let cat ← categoryOf o.db categoryId
    .ok ((listAutoReplyFiles o.db cat).map autoReplyFileOut)

/-- The admin router lets admins in only; the calls on requests ask for a role
themselves. -/
def PageMutation.admitted (db : Db) (userId : Nat) : PageMutation → Bool
  | .assignRequest .. => true
  | .transitionRequest .. => true
  | .answerRequest .. => true
  | _ => (requireRoles db userId [.admin]).toBool

/-- The handler of a mutation. -/
def PageMutation.made (m : PageMutation) (o : Stamped) (now : Int) : Stamped :=
  if m.admitted o.db userId then o.step cfg ⟨now, m.step userId⟩ else o

/-- The endpoints of a user. A mutation comes with the instant it is made at. -/
def pageEndpoints :
    TaggedCaches.Endpoints Stamped PageQuery (Int × PageMutation) CacheTag Int PageQuery.Data where
  answer q now o := (pageAnswer texts userId o now q).toOption
  exec m o := m.2.made cfg userId o m.1
  provides := providesTags
  invalidates m := invalidatesTags m.2

/-! ## What a mutation leaves alone -/

variable {cfg texts userId} {o o' : Stamped} {now : Int} {id : Nat}

/-- Two pages of a request that differ in the row of the service at most. -/
def SameDetail (d d' : RequestDetail) : Prop :=
  ∃ category serviceType, d' = { d with category, serviceType }

/-- Two results that may stand for each other. -/
def SameData : (q : PageQuery) → q.Data → q.Data → Prop
  | .getRequest _ => SameDetail
  | .listRequests .. => Eq
  | .listAssignees _ => Eq
  | .getDashboardStats => Eq
  | .listCategories => Eq
  | .listAutoReplyFiles _ => Eq

/-- What no mutation of these pages touches. -/
structure Steady (o o' : Stamped) : Prop where
  users : o'.db.users = o.db.users
  categories : ∀ id, (o.db.getCategory id).isSome → (o'.db.getCategory id).isSome

/-- The request and what belongs to it are as they were. -/
structure SameRequest (o o' : Stamped) (id : Nat) : Prop where
  row : o'.db.getRequest id = o.db.getRequest id
  history : o'.db.historyOf id = o.db.historyOf id
  files : o'.db.filesOf id = o.db.filesOf id
  messages : o'.db.messagesOf id = o.db.messagesOf id
  updatedAt : o'.updatedAt id = o.updatedAt id

/-- What is left alone when no more than these tags is named. -/
structure Untouched (tags : List CacheTag) (o o' : Stamped) : Prop extends Steady o o' where
  request : ∀ id, .request id ∉ tags → (o.db.getRequest id).isSome → SameRequest o o' id
  requests : .requestList ∉ tags ∨ .dashboard ∉ tags →
    o'.db.requests = o.db.requests ∧ o'.updatedAt = o.updatedAt
  catalogue : .categoryList ∉ tags → o'.db.categories = o.db.categories
  files : ∀ id, .files id ∉ tags →
    o'.db.autoReplyFiles.filter (·.categoryId == id) = o.db.autoReplyFiles.filter (·.categoryId == id)

theorem Steady.getUser (h : Steady o o') : o'.db.getUser = o.db.getUser := by
  funext id
  unfold Db.getUser
  rw [h.users]

theorem Steady.currentUser (h : Steady o o') (userId : Nat) :
    currentUser o'.db userId = currentUser o.db userId := by
  unfold Api.currentUser
  rw [h.getUser]

theorem SameRequest.getRequestForUser (h : SameRequest o o' id) {user : User} {r : Request}
    (hrow : o.db.getRequest id = some r) (hview : assertCanView r user = .ok ()) :
    Royd.getRequestForUser o'.db id user = .ok (Work.load o'.db r) :=
  getRequestForUser_iff.mpr ⟨r, h.row.trans hrow, hview, rfl⟩

/-- The row of the service may have been edited; the rest of the page stands. -/
theorem SameRequest.forViewer (hsteady : Steady o o') {r : Request} (h : SameRequest o o' r.id)
    {internal : Bool} {d : RequestDetail}
    (hd : Api.forViewer o.db o.updatedAt now internal r = .ok d) :
    ∃ d', Api.forViewer o'.db o'.updatedAt now internal r = .ok d' ∧ SameDetail d d' := by
  unfold Api.forViewer at hd
  split at hd
  swap
  · cases hd
  rename_i category student hcategory hstudent
  cases hd
  obtain ⟨category', hcategory'⟩ := Option.isSome_iff_exists.mp
    (hsteady.categories r.categoryId (Option.isSome_iff_exists.mpr ⟨category, hcategory⟩))
  have hactors : actors o'.db r = actors o.db r := by
    unfold actors
    rw [hsteady.getUser, h.messages, h.history]
  have hsummary : requestSummary o'.updatedAt now r = requestSummary o.updatedAt now r := by
    unfold requestSummary
    rw [h.updatedAt]
  have hanswer : answerOut o'.db r = answerOut o.db r := by
    funext files
    unfold answerOut
    rw [hsteady.getUser]
  refine ⟨_, ?_, category', category'.parentId.bind o'.db.getCategory, rfl⟩
  unfold Api.forViewer
  rw [hcategory', hsteady.getUser, hstudent]
  dsimp only
  rw [hactors, hsummary, hanswer, h.history, h.files, h.messages]

/-- The page of a request the mutation was not about. -/
theorem getDetail_same (hsteady : Steady o o') {d : RequestDetail}
    (hsame : (o.db.getRequest id).isSome → SameRequest o o' id)
    (h : getDetail o.db o.updatedAt now userId id = .ok d) :
    ∃ d', getDetail o'.db o'.updatedAt now userId id = .ok d' ∧ SameDetail d d' := by
  obtain ⟨user, huser, hloaded⟩ := bind_eq_ok.mp h
  obtain ⟨w, hw, hshown⟩ := bind_eq_ok.mp hloaded
  obtain ⟨r, hrow, hview, rfl⟩ := getRequestForUser_iff.mp hw
  obtain rfl := (getRequest_mem hrow).2
  have hrequest := hsame (Option.isSome_iff_exists.mpr ⟨r, hrow⟩)
  obtain ⟨d', hd', hdetail⟩ := hrequest.forViewer hsteady hshown
  have hload := hrequest.getRequestForUser hrow hview
  exact ⟨d', bind_eq_ok.mpr ⟨user, (hsteady.currentUser userId).trans huser,
    bind_eq_ok.mpr ⟨_, hload, hd'⟩⟩, hdetail⟩

theorem Untouched.refl (tags : List CacheTag) (o : Stamped) : Untouched tags o o where
  users := rfl
  categories _ h := h
  request _ _ _ := ⟨rfl, rfl, rfl, rfl, rfl⟩
  requests _ := ⟨rfl, rfl⟩
  catalogue _ := rfl
  files _ _ := rfl

/-- The list of a service's files. -/
theorem Untouched.listAutoReplyFiles {tags : List CacheTag} (h : Untouched tags o o')
    (hmiss : .files id ∉ tags) {cat : RequestCategory} (hcat : categoryOf o.db id = .ok cat) :
    ∃ cat', categoryOf o'.db id = .ok cat' ∧
      listAutoReplyFiles o'.db cat' = listAutoReplyFiles o.db cat := by
  have hrow : (o.db.getCategory id).isSome := by
    unfold categoryOf at hcat
    split at hcat
    · rename_i hget
      rw [hget]
      rfl
    · cases hcat
  obtain ⟨cat', hget'⟩ := Option.isSome_iff_exists.mp (h.categories id hrow)
  have hcat' : categoryOf o'.db id = .ok cat' := by
    unfold categoryOf
    rw [hget']
  refine ⟨cat', hcat', ?_⟩
  unfold Royd.listAutoReplyFiles
  rw [categoryOf_id hcat', categoryOf_id hcat, h.files id hmiss]

/-- A result none of whose tags is named is what the query still returns. -/
theorem Untouched.answer {tags : List CacheTag} (h : Untouched tags o o') {q : PageQuery}
    {a : q.Data} (hanswer : pageAnswer texts userId o now q = .ok a)
    (hmiss : ∀ t ∈ tags, t ∉ providesTags q a) :
    ∃ b, pageAnswer texts userId o' now q = .ok b ∧ SameData q a b := by
  have hnot : ∀ {t}, t ∈ providesTags q a → t ∉ tags := fun hprovides hin => hmiss _ hin hprovides
  have huser := h.toSteady.currentUser userId
  have hroles : ∀ roles, requireRoles o'.db userId roles = requireRoles o.db userId roles :=
    fun roles => by unfold requireRoles; rw [huser]
  cases q with
  | getRequest id =>
    exact getDetail_same h.toSteady (h.request id (hnot (List.mem_singleton.mpr rfl))) hanswer
  | listRequests filters bounds =>
    obtain ⟨hrequests, hupdated⟩ := h.requests (.inl (hnot (List.mem_append_right _ (by simp))))
    refine ⟨a, ?_, rfl⟩
    unfold pageAnswer Api.listRequests Api.listRequestsIn at hanswer ⊢
    rw [huser, hrequests, hupdated]
    exact hanswer
  | listAssignees facultyId =>
    refine ⟨a, ?_, rfl⟩
    unfold pageAnswer listAssignees at hanswer ⊢
    rw [hroles, h.users]
    exact hanswer
  | getDashboardStats =>
    obtain ⟨hrequests, -⟩ := h.requests (.inr (hnot (List.mem_singleton.mpr rfl)))
    refine ⟨a, ?_, rfl⟩
    unfold pageAnswer dashboardStats visibleRequests statsOf at hanswer ⊢
    rw [huser, hrequests, h.users]
    exact hanswer
  | listCategories =>
    have hcategories := h.catalogue (hnot (List.mem_singleton.mpr rfl))
    refine ⟨a, ?_, rfl⟩
    unfold pageAnswer Catalogue.categoryTree Catalogue.categoryRows at hanswer ⊢
    rw [huser, hcategories]
    exact hanswer
  | listAutoReplyFiles id =>
    obtain ⟨_, hadmin, hanswer⟩ := bind_eq_ok.mp hanswer
    obtain ⟨cat, hcat, hanswer⟩ := bind_eq_ok.mp hanswer
    obtain ⟨cat', hcat', hfiles⟩ :=
      h.listAutoReplyFiles (hnot (List.mem_singleton.mpr rfl)) hcat
    refine ⟨a, ?_, rfl⟩
    unfold pageAnswer
    dsimp only
    rw [hroles, hadmin, hcat']
    change Except.ok ((Royd.listAutoReplyFiles o'.db cat').map autoReplyFileOut) = _
    rw [hfiles]
    exact hanswer

/-! ## What a mutation touches -/

theorem stamped_failed {e : Event} {exc : Exc} (h : e.step.apply cfg o.db e.now = .error exc) :
    o.step cfg e = o := by
  unfold Stamped.step touch
  rw [step_failed h]
  simp

theorem updatedAt_same {e : Event} (h : (step cfg o.db e).getRequest id = o.db.getRequest id) :
    (o.step cfg e).updatedAt id = o.updatedAt id := by
  unfold Stamped.step touch
  dsimp only
  rw [if_pos h]

/-- A request whose life is as it was. -/
theorem sameRequest_of_life {e : Event} (hrow : (o.db.getRequest id).isSome)
    (h : (step cfg o.db e).life? id = o.db.life? id) : SameRequest o (o.step cfg e) id := by
  obtain ⟨r, hr⟩ := Option.isSome_iff_exists.mp hrow
  have hlife : (step cfg o.db e).life? id = some ⟨r, o.db.historyOf id, o.db.filesOf id,
      o.db.messagesOf id, answersQueued o.db.outbox id⟩ := by
    rw [h, Db.life?, hr]
    rfl
  obtain ⟨r', hr', hparts⟩ := Option.map_eq_some_iff.mp hlife
  rw [Life.mk.injEq] at hparts
  obtain ⟨rfl, hhistory, hfiles, hmessages, -⟩ := hparts
  have hget : (step cfg o.db e).getRequest id = o.db.getRequest id := hr'.trans hr.symm
  exact ⟨hget, hhistory, hfiles, hmessages, updatedAt_same hget⟩

/-- A call on a request. -/
theorem untouched_call {c : Call} :
    Untouched [.request c.requestId, .requestList, .dashboard] o (o.step cfg ⟨now, .call c⟩) := by
  cases happly : Step.apply cfg o.db now (.call c) with
  | error _ =>
    rw [stamped_failed happly]
    exact Untouched.refl _ _
  | ok db' =>
    obtain ⟨w, hhandle, h⟩ := bind_eq_ok.mp happly
    cases h
    have hdb : (o.step cfg ⟨now, .call c⟩).db = o.db.finish w := step_committed happly
    obtain ⟨-, hid, change⟩ := handle_change hhandle
    refine
      { users := ?_
        categories := fun id hcat => ?_
        request := fun id hmiss hrow => sameRequest_of_life hrow ?_
        requests := fun hmiss => absurd hmiss (by simp)
        catalogue := fun _ => ?_
        files := fun id _ => ?_ }
    · rw [hdb]
      rfl
    · rw [hdb]
      exact hcat
    · change (o.step cfg ⟨now, .call c⟩).db.life? id = o.db.life? id
      rw [hdb]
      refine life?_finish_other (fun heq => hmiss ?_) change
      simp [← heq, hid]
    · rw [hdb]
      rfl
    · rw [hdb]
      rfl

/-- The ids of the files of services tell them apart. -/
structure FileKeys (db : Db) : Prop where
  distinct : (db.autoReplyFiles.map (·.id)).Nodup
  below : ServiceDialog.FileIds db

theorem FileKeys.commit {db db' : Db} (h : FileKeys db) {step : Api.Step}
    (happly : step.apply cfg db now = .ok db') : FileKeys db' := by
  refine ⟨?_, h.below.commit happly⟩
  cases step_fileRows happly with
  | kept _ _ services _ => exact h.distinct.sublist (services.map _)
  | attached _ services _ => exact services ▸ h.distinct
  | copied _ _ services _ => exact services ▸ h.distinct
  | added _ services hid _ =>
    rw [services, List.map_append]
    refine List.nodup_append.mpr ⟨h.distinct, List.nodup_singleton _, fun a ha b hb => ?_⟩
    obtain ⟨f, hf, rfl⟩ := List.mem_map.mp ha
    rw [List.mem_singleton.mp hb]
    exact ne_of_lt ((h.below f hf).trans_eq hid.symm)

/-- The service whose files an edit is about. -/
def filesEdited? : CatalogueEdit → Option Nat
  | .addFile categoryId _ _ => some categoryId
  | .removeFile categoryId _ => some categoryId
  | _ => none

variable {db db' : Db} {edit : CatalogueEdit}

theorem addAutoReplyFile_eq_ok {cat : RequestCategory} {upload : Upload} {uploader : Nat}
    (h : addAutoReplyFile cfg db cat upload uploader now = .ok db') :
    ∃ f : AutoReplyFile, f.categoryId = cat.id ∧ db' =
      { db with nextId := db.nextId + 1, autoReplyFiles := db.autoReplyFiles ++ [f] } := by
  unfold addAutoReplyFile at h
  split at h
  · cases h
  split at h
  · cases h
  split at h
  · cases h
  · cases h
    exact ⟨_, rfl, rfl⟩

theorem removeAutoReplyFile_eq_ok {cat : RequestCategory} {fileId : Nat}
    (h : removeAutoReplyFile db cat fileId = .ok db') :
    ∃ f ∈ db.autoReplyFiles, f.categoryId = cat.id ∧
      db' = { db with autoReplyFiles := db.autoReplyFiles.filter (·.id != f.id) } := by
  unfold removeAutoReplyFile at h
  split at h
  · cases h
  · rename_i record hrecord
    cases h
    have hfound := List.find?_some hrecord
    rw [Bool.and_eq_true, beq_iff_eq, beq_iff_eq] at hfound
    exact ⟨record, List.mem_of_find?_eq_some hrecord, hfound.2, rfl⟩

/-- An edit of the files of a service leaves the catalogue alone. -/
theorem fileEdit_categories (h : edit.apply cfg db now = .ok db')
    (hfiles : filesEdited? edit ≠ none) : db'.categories = db.categories := by
  cases edit with
  | create data => exact absurd rfl hfiles
  | update categoryId payload => exact absurd rfl hfiles
  | deactivate categoryId => exact absurd rfl hfiles
  | addFile categoryId upload userId =>
    obtain ⟨cat, -, h⟩ := bind_eq_ok.mp h
    obtain ⟨f, -, rfl⟩ := addAutoReplyFile_eq_ok h
    rfl
  | removeFile categoryId fileId =>
    obtain ⟨cat, -, h⟩ := bind_eq_ok.mp h
    obtain ⟨f, -, -, rfl⟩ := removeAutoReplyFile_eq_ok h
    rfl

/-- An edit leaves the files of every other service alone. -/
theorem catalogueEdit_files (hkeys : FileKeys db) (h : edit.apply cfg db now = .ok db')
    (hother : filesEdited? edit ≠ some id) :
    db'.autoReplyFiles.filter (·.categoryId == id) =
      db.autoReplyFiles.filter (·.categoryId == id) := by
  cases edit with
  | create data =>
    obtain ⟨_, -, -, rfl⟩ := buildCategory_ruled h
    rfl
  | update categoryId payload =>
    obtain ⟨cat, -, h⟩ := bind_eq_ok.mp h
    obtain ⟨cat', -, h⟩ := bind_eq_ok.mp h
    cases h
    rfl
  | deactivate categoryId =>
    obtain ⟨cat, -, h⟩ := bind_eq_ok.mp h
    cases h
    rfl
  | addFile categoryId upload userId =>
    obtain ⟨cat, hcat, h⟩ := bind_eq_ok.mp h
    obtain ⟨f, hservice, rfl⟩ := addAutoReplyFile_eq_ok h
    have hne : f.categoryId ≠ id := fun heq => hother (by
      rw [← heq, hservice, categoryOf_id hcat]
      rfl)
    simp [List.filter_append, hne]
  | removeFile categoryId fileId =>
    obtain ⟨cat, hcat, h⟩ := bind_eq_ok.mp h
    obtain ⟨gone, hgone, hservice, rfl⟩ := removeAutoReplyFile_eq_ok h
    have hne : gone.categoryId ≠ id := fun heq => hother (by
      rw [← heq, hservice, categoryOf_id hcat]
      rfl)
    dsimp only
    rw [List.filter_filter]
    refine List.filter_congr fun f hf => ?_
    by_cases hcategory : f.categoryId = id
    · -- The row that goes has an id of its own.
      have hkept : f.id ≠ gone.id := fun heq =>
        hne (List.inj_on_of_nodup_map hkeys.distinct hf hgone heq ▸ hcategory)
      simp [hcategory, hkept]
    · simp [hcategory]

/-- An edit of the catalogue, when the tags name what it is about. -/
theorem untouched_catalogue {tags : List CacheTag} (hkeys : FileKeys o.db)
    (htag : ((filesEdited? edit).map CacheTag.files).getD .categoryList ∈ tags) :
    Untouched tags o (o.step cfg ⟨now, .catalogue edit⟩) := by
  cases happly : Step.apply cfg o.db now (.catalogue edit) with
  | error _ =>
    rw [stamped_failed happly]
    exact Untouched.refl _ _
  | ok db' =>
    have hdb : step cfg o.db ⟨now, .catalogue edit⟩ = db' := step_committed happly
    have hedit : edit.apply cfg o.db now = .ok db' := happly
    obtain ⟨husers, hrequests, -⟩ := catalogueEdit_tables hedit
    have hstamped : (o.step cfg ⟨now, .catalogue edit⟩).db = db' := hdb
    refine
      { users := hstamped ▸ husers
        categories := fun id hcat => ?_
        request := fun id _ hrow => sameRequest_of_life hrow ?_
        requests := fun _ => ⟨hstamped ▸ hrequests, funext fun id => updatedAt_same ?_⟩
        catalogue := fun hmiss => ?_
        files := fun id hmiss => ?_ }
    · obtain ⟨cat, hcat⟩ := Option.isSome_iff_exists.mp hcat
      obtain ⟨cat', hcat', hid⟩ := (catalogueEdit_recatalogues hedit).ids
        ⟨cat, List.mem_of_find?_eq_some hcat, by simpa using List.find?_some hcat⟩
      rw [hstamped]
      exact List.find?_isSome.mpr ⟨cat', hcat', by simpa using hid⟩
    · rw [hdb]
      exact (catalogueEdit_elsewhere hedit).life? id
    · rw [hdb]
      unfold Db.getRequest
      rw [hrequests]
    · rw [hstamped]
      refine fileEdit_categories hedit fun hnone => hmiss ?_
      rwa [hnone] at htag
    · rw [hstamped]
      refine catalogueEdit_files hkeys hedit fun hsome => hmiss ?_
      rwa [hsome] at htag

/-- A mutation touches no more than its tags say. -/
theorem made_untouched (hkeys : FileKeys o.db) (m : PageMutation) :
    Untouched (invalidatesTags m) o (m.made cfg userId o now) := by
  unfold PageMutation.made
  split
  · cases m with
    | assignRequest id data => exact untouched_call (c := .assign userId id data)
    | transitionRequest id data => exact untouched_call (c := .transition userId id data)
    | answerRequest id text files => exact untouched_call (c := .answer userId id text files)
    | createCategory data => exact untouched_catalogue hkeys List.mem_cons_self
    | updateCategory id data => exact untouched_catalogue hkeys List.mem_cons_self
    | deactivateCategory id => exact untouched_catalogue hkeys List.mem_cons_self
    | uploadAutoReplyFile id file => exact untouched_catalogue hkeys List.mem_cons_self
    | deleteAutoReplyFile id fileId => exact untouched_catalogue hkeys List.mem_cons_self
  · exact Untouched.refl _ _

theorem made_fileKeys (hkeys : FileKeys o.db) (m : PageMutation) :
    FileKeys (m.made cfg userId o now).db := by
  unfold PageMutation.made
  split
  · change FileKeys (step cfg o.db _)
    cases happly : (m.step userId).apply cfg o.db now with
    | error _ => rwa [step_failed happly]
    | ok db' =>
      rw [step_committed happly]
      exact hkeys.commit happly
  · exact hkeys

/-- The tags do what `Lib.TaggedCaches` asks of them. -/
theorem pageEndpoints_sound :
    (pageEndpoints cfg texts userId).Sound (fun o => FileKeys o.db) SameData where
  refl q a := by
    cases q with
    | getRequest id => exact ⟨a.category, a.serviceType, rfl⟩
    | _ => rfl
  trans {q a b c} hab hbc := by
    cases q with
    | getRequest id =>
      obtain ⟨_, _, rfl⟩ := hab
      obtain ⟨_, _, rfl⟩ := hbc
      exact ⟨_, _, rfl⟩
    | _ => exact Eq.trans hab hbc
  tags {q a b} hab := by
    cases q with
    | listRequests filters bounds => exact congrArg _ (Eq.symm hab)
    | _ => rfl
  keeps m hkeys := made_fileKeys hkeys m.2
  frame {o m q i a} hkeys hanswer hmiss := by
    obtain ⟨b, hb, hsame⟩ :=
      (made_untouched hkeys m.2).answer (toOption_eq_some.mp hanswer) hmiss
    exact ⟨b, toOption_eq_some.mpr hb, hsame⟩

/-! ## What the pages show -/

/-- The result is what the server would answer, at the instant it was read. -/
def Stands (texts : Comparing) (userId : Nat) (o : Stamped)
    (e : TaggedCaches.Entry PageQuery Int PageQuery.Data) : Prop :=
  ∃ a, pageAnswer texts userId o e.readAt e.query = .ok a ∧ SameData e.query e.value a

/-- What a user's cache may be trusted with. -/
structure Trusted (cfg : Settings) (texts : Comparing) (userId : Nat)
    (c : TaggedCaches.Client Stamped PageQuery (Int × PageMutation) CacheTag Int PageQuery.Data) :
    Prop where
  /-- A result that is not stale stands, or a tag is on its way to it. -/
  due : ∀ e ∈ c.entries, e.stale = false →
    (pageEndpoints cfg texts userId).Hit ((pageEndpoints cfg texts userId).tagsDue c) e ∨
      Stands texts userId c.source e
  /-- Once nothing is under way, what is left fresh stands. -/
  settled : c.reads = [] → c.writes = [] →
    ∀ e ∈ ((pageEndpoints cfg texts userId).step c .settle).entries, e.stale = false →
      Stands texts userId ((pageEndpoints cfg texts userId).step c .settle).source e

/-- Whatever a user asks for and does, and in whatever order the replies come
in, no page goes on showing what their own work has made untrue, but for the
row of a service on the page of a request. -/
theorem cached_pages_stand (cfg : Settings) (texts : Comparing) (userId : Nat)
    (hkeys : FileKeys o.db) (xs : List (TaggedCaches.Action PageQuery (Int × PageMutation) Int)) :
    Trusted cfg texts userId
      (Runs.run (pageEndpoints cfg texts userId).step { source := o } xs) := by
  have hsound : (pageEndpoints cfg texts userId).Sound (fun o => FileKeys o.db) SameData :=
    pageEndpoints_sound
  have hhonest := TaggedCaches.Endpoints.run_honest hsound hkeys xs
  constructor
  · intro e he hfresh
    refine (hhonest.results e (List.mem_append_left _ he) hfresh).imp_right ?_
    rintro ⟨a, ha, hsame⟩
    exact ⟨a, toOption_eq_some.mp ha, hsame⟩
  · intro hreads hwrites e he hfresh
    obtain ⟨a, ha, hsame⟩ := hhonest.settled hsound hreads hwrites e he hfresh
    exact ⟨a, toOption_eq_some.mp ha, hsame⟩

/-- The administrator opens a request and the catalogue, and renames the
service of the request. -/
def serviceRenamed : List (TaggedCaches.Action PageQuery (Int × PageMutation) Int) :=
  [.ask (.getRequest 10) 1, .ask .listCategories 1, .arrive 0, .arrive 0,
    .write (2, .updateCategory 4 { name := some "Yangi xizmat" }), .reply 0, .settle]

/-- The catalogue is asked for again, and the page of the request is not: it
goes on showing the old name. -/
theorem cached_pages_stand_helpdesk :
    let texts : Comparing := ⟨fun _ _ => true, fun _ _ => false⟩
    let desk : Stamped := ⟨Runs.run (happens {}) helpdesk deskFiling, fun _ => 0⟩
    let c := Runs.run (pageEndpoints {} texts 1).step { source := desk } serviceRenamed
    c.entries.map (fun e => (e.query, e.stale)) =
        [(.getRequest 10, false), (.listCategories, true)] ∧
      (c.source.db.getCategory 4).map (·.name) = some "Yangi xizmat" ∧ Trusted {} texts 1 c := by
  intro texts desk c
  have hkeys : FileKeys desk.db := ⟨by decide +kernel, by
    unfold ServiceDialog.FileIds
    decide +kernel⟩
  exact ⟨by decide +kernel, by decide +kernel, cached_pages_stand {} texts 1 hkeys serviceRenamed⟩

end Royd.Screens
