/-
Royd.Lifecycle.Runs — from commits to runs: every event of the system is a
chain of commits, so every run keeps what the machine of one request keeps.
-/
import Royd.Lifecycle.Life

namespace Royd

open Api

variable {cfg : Settings} {now : Int} {cats : List RequestCategory} {db db' : Db}

/-! ## The SLA sweep -/

/-- A commit to one row leaves the rows with other ids as they were. -/
theorem mem_finish {w : Work} {r : Request} (hr : r ∈ db.requests) (hid : r.id ≠ w.loaded.id) :
    r ∈ (db.finish w).requests :=
  List.mem_map.mpr ⟨r, hr, if_neg hid⟩

theorem sweepLoop_effects : ∀ (candidates : List Request) (db : Db),
    (∀ r ∈ candidates, r ∈ db.requests ∧ r.status ∈ RequestStatus.slaRunning) →
    (candidates.map (·.id)).Nodup →
    Effects cfg now cats db
      (candidates.foldl (fun db req => db.finish (sweepOne cfg db req now)) db)
  | [], _, _, _ => .refl
  | r :: rest, db, hmem, hnodup => by
    obtain ⟨hr, hrunning⟩ := hmem r List.mem_cons_self
    have hstep : Effect cfg now cats db (db.finish (sweepOne cfg db r now)) :=
      .changed hr (sweepOne_change hrunning)
    rw [List.map_cons, List.nodup_cons] at hnodup
    refine .head hstep (sweepLoop_effects rest _ (fun r' hr' => ?_) hnodup.2)
    obtain ⟨hin, hrun⟩ := hmem r' (List.mem_cons_of_mem _ hr')
    refine ⟨mem_finish hin fun heq => hnodup.1 ?_, hrun⟩
    exact List.mem_map.mpr ⟨r', hr', heq⟩

theorem sweepCandidates_spec (cfg : Settings) (now : Int) (hwf : db.Wf) :
    (∀ r ∈ sweepCandidates cfg db now, r ∈ db.requests ∧ r.status ∈ RequestStatus.slaRunning) ∧
      ((sweepCandidates cfg db now).map (·.id)).Nodup := by
  have hsub := List.take_sublist sweepBatch ((db.requests.filter (needsNotice cfg now)).mergeSort
    fun a b => decide (a.slaDeadline ≤ b.slaDeadline))
  have hperm := List.mergeSort_perm (db.requests.filter (needsNotice cfg now))
    fun a b => decide (a.slaDeadline ≤ b.slaDeadline)
  constructor
  · intro r hr
    obtain ⟨hin, hneeds⟩ := List.mem_filter.mp (hperm.mem_iff.mp (hsub.subset hr))
    refine ⟨hin, ?_⟩
    unfold needsNotice at hneeds
    simp only [Bool.and_eq_true] at hneeds
    simpa using hneeds.1.1
  · refine (hsub.map _).nodup ?_
    rw [(hperm.map _).nodup_iff]
    exact (List.filter_sublist.map _).nodup hwf.requestIds

theorem sweep_effects (hwf : db.Wf) (useLock won : Bool) :
    Effects cfg now cats db (sweepSlaDeadlines cfg db useLock won now) := by
  unfold sweepSlaDeadlines
  split
  · exact .refl
  · obtain ⟨hmem, hnodup⟩ := sweepCandidates_spec cfg now hwf
    exact sweepLoop_effects _ db hmem hnodup

theorem needsNotice_running {r : Request} (h : needsNotice cfg now r = true) :
    r.status ∈ RequestStatus.slaRunning := by
  unfold needsNotice at h
  simp only [Bool.and_eq_true] at h
  simpa using h.1.1

theorem sweepLoop_relates {R : Db → Db → Prop} (hrefl : ∀ db, R db db)
    (htrans : ∀ {a b c}, R a b → R b c → R a c)
    (hstep : ∀ db r, db.Wf → r ∈ db.requests → needsNotice cfg now r = true →
      R db (db.finish (sweepOne cfg db r now))) :
    ∀ (candidates : List Request) (db : Db), db.Wf →
      (∀ r ∈ candidates, r ∈ db.requests ∧ needsNotice cfg now r = true) →
      (candidates.map (·.id)).Nodup →
      R db (candidates.foldl (fun db req => db.finish (sweepOne cfg db req now)) db)
  | [], db, _, _, _ => hrefl db
  | r :: rest, db, hwf, hmem, hnodup => by
    obtain ⟨hr, hneeds⟩ := hmem r List.mem_cons_self
    have hnext : (db.finish (sweepOne cfg db r now)).Wf :=
      hwf.finish (hwf.requestsBelow r hr) (sweepOne_change (needsNotice_running hneeds))
    rw [List.map_cons, List.nodup_cons] at hnodup
    refine htrans (hstep db r hwf hr hneeds)
      (sweepLoop_relates hrefl htrans hstep rest _ hnext (fun r' hr' => ?_) hnodup.2)
    obtain ⟨hin, hneeds'⟩ := hmem r' (List.mem_cons_of_mem _ hr')
    refine ⟨mem_finish hin fun heq => hnodup.1 ?_, hneeds'⟩
    exact List.mem_map.mpr ⟨r', hr', heq⟩

/-- What a relation says of each candidate of the sweep, it says of the whole
pass. A candidate still is as the query found it when its turn comes. -/
theorem sweep_relates {R : Db → Db → Prop} (hrefl : ∀ db, R db db)
    (htrans : ∀ {a b c}, R a b → R b c → R a c)
    (hstep : ∀ db r, db.Wf → r ∈ db.requests → needsNotice cfg now r = true →
      R db (db.finish (sweepOne cfg db r now)))
    (hwf : db.Wf) (useLock won : Bool) : R db (sweepSlaDeadlines cfg db useLock won now) := by
  unfold sweepSlaDeadlines
  split
  · exact hrefl db
  · refine sweepLoop_relates hrefl htrans hstep _ db hwf (fun r hr => ?_)
      (sweepCandidates_spec cfg now hwf).2
    have hsub := List.take_sublist sweepBatch ((db.requests.filter (needsNotice cfg now)).mergeSort
      fun a b => decide (a.slaDeadline ≤ b.slaDeadline))
    have hperm := List.mergeSort_perm (db.requests.filter (needsNotice cfg now))
      fun a b => decide (a.slaDeadline ≤ b.slaDeadline)
    exact List.mem_filter.mp (hperm.mem_iff.mp (hsub.subset hr))

/-! ## Filing -/

/-- The upsert of a student leaves requests and catalogue alone. -/
theorem applySync_effect (db : Db) (sync : StudentSync) : Effect cfg now cats db (db.applySync sync) :=
  .outside rfl rfl rfl rfl rfl (Nat.le_max_left _ _) id

theorem insertFiling_effects {f : Filing} {student : User} {data : RequestCreate}
    {trackingNo : String} {clientRef : Option String} {client : Option ApiClient}
    (h : fileRequest cfg ((f.sync.map db.applySync).getD db) student data trackingNo clientRef
      client now = .ok (f.req, f.session)) :
    Effects cfg now db.categories db (insertFiling db f) := by
  obtain ⟨category, first, second, fs, hfiled, hopening, hholds⟩ := fileRequest_filed h
  have hcats : ((f.sync.map db.applySync).getD db).categories = db.categories := by
    cases f.sync <;> rfl
  have hfinal := Effect.filed hcats hfiled hopening hholds
  unfold insertFiling
  cases hsync : f.sync with
  | none =>
    rw [hsync] at hfinal
    exact .single hfinal
  | some sync =>
    rw [hsync] at hfinal
    exact .tail (.single (applySync_effect db sync)) hfinal

theorem commitFiling_eq_ok {f : Filing} (h : commitFiling db f = .ok db') :
    checkUnique db f = .ok () ∧ db' = insertFiling db f := by
  obtain ⟨_, hunique, h⟩ := bind_eq_ok.mp h
  cases h
  exact ⟨hunique, rfl⟩

/-- A submission commits nothing, or the request it filed. -/
theorem runCreate_eq_ok {userId : Nat} {data : RequestCreate} {key : Option String}
    {trackingNo : String} (h : runCreate cfg db userId data key trackingNo now = .ok db') :
    ∃ student, requireStudent db userId = .ok student ∧ (db' = db ∨ ∃ req session,
      fileRequest cfg db student data trackingNo key none now = .ok (req, session) ∧
        db' = insertFiling db { req, session }) := by
  obtain ⟨student, hstudent, h⟩ := bind_eq_ok.mp h
  refine ⟨student, hstudent, ?_⟩
  split at h
  · cases h
    exact .inl rfl
  · obtain ⟨f, hcreate, h⟩ := bind_eq_ok.mp h
    obtain ⟨-, rfl⟩ := commitFiling_eq_ok h
    obtain ⟨⟨req, session⟩, hfile, hcreate⟩ := bind_eq_ok.mp hcreate
    cases hcreate
    exact .inr ⟨req, session, hfile, rfl⟩

/-- And so does one of an integration, which brings its student up to date. -/
theorem runClientCreate_eq_ok {client : ApiClient} {profile : StudentProfile}
    {data : RequestCreate} {key : Option String} {trackingNo : String}
    (h : runClientCreate cfg db client profile data key trackingNo now = .ok db') :
    ∃ sync, syncStudent db profile = .ok sync ∧ (db' = db ∨ ∃ req session,
      fileRequest cfg (db.applySync sync) sync.user data trackingNo key (some client) now =
          .ok (req, session) ∧
        db' = insertFiling db { sync := some sync, req, session }) := by
  obtain ⟨sync, hsync, h⟩ := bind_eq_ok.mp h
  refine ⟨sync, hsync, ?_⟩
  split at h
  · obtain ⟨_, _, h⟩ := bind_eq_ok.mp h
    cases h
    exact .inl rfl
  · obtain ⟨f, hcreate, h⟩ := bind_eq_ok.mp h
    obtain ⟨-, rfl⟩ := commitFiling_eq_ok h
    obtain ⟨⟨req, session⟩, hfile, hcreate⟩ := bind_eq_ok.mp hcreate
    cases hcreate
    exact .inr ⟨req, session, hfile, rfl⟩

theorem runCreate_effects {userId : Nat} {data : RequestCreate} {key : Option String}
    {trackingNo : String} (h : runCreate cfg db userId data key trackingNo now = .ok db') :
    Effects cfg now db.categories db db' := by
  obtain ⟨student, -, rfl | ⟨req, session, hfile, rfl⟩⟩ := runCreate_eq_ok h
  · exact .refl
  · exact insertFiling_effects hfile

theorem runClientCreate_effects {client : ApiClient} {profile : StudentProfile}
    {data : RequestCreate} {key : Option String} {trackingNo : String}
    (h : runClientCreate cfg db client profile data key trackingNo now = .ok db') :
    Effects cfg now db.categories db db' := by
  obtain ⟨sync, -, rfl | ⟨req, session, hfile, rfl⟩⟩ := runClientCreate_eq_ok h
  · exact .refl
  · exact insertFiling_effects hfile

/-! ## The catalogue -/

theorem categoryOf_mem {categoryId : Nat} {cat : RequestCategory}
    (h : categoryOf db categoryId = .ok cat) : cat ∈ db.categories := by
  unfold categoryOf at h
  split at h
  · rename_i hcat
    cases h
    exact List.mem_of_find?_eq_some hcat
  · cases h

/-- No request and nothing that hangs off one is touched. -/
structure Db.Elsewhere (db db' : Db) : Prop where
  requests : db'.requests = db.requests
  history : db'.history = db.history
  files : db'.files = db.files
  messages : db'.messages = db.messages
  outbox : db'.outbox = db.outbox
  nextId : db.nextId ≤ db'.nextId
  catalogue : CatalogueOk db → CatalogueOk db'

theorem Db.Elsewhere.effect (h : db.Elsewhere db') : Effect cfg now cats db db' :=
  .outside h.requests h.history h.files h.messages h.outbox h.nextId h.catalogue

theorem catalogueEdit_elsewhere {edit : CatalogueEdit} (h : edit.apply cfg db now = .ok db') :
    db.Elsewhere db' := by
  cases edit with
  | create data =>
    have hok := fun hcat : CatalogueOk db => buildCategory_ok hcat h
    unfold CatalogueEdit.apply buildCategory at h
    dsimp only at h
    split at h
    · cases h
      exact ⟨rfl, rfl, rfl, rfl, rfl, Nat.le_succ _, hok⟩
    · obtain ⟨_, _, h⟩ := bind_eq_ok.mp h
      obtain ⟨_, _, h⟩ := bind_eq_ok.mp h
      obtain ⟨_, _, h⟩ := bind_eq_ok.mp h
      cases h
      exact ⟨rfl, rfl, rfl, rfl, rfl, Nat.le_succ _, hok⟩
  | update categoryId payload =>
    obtain ⟨cat, _, h⟩ := bind_eq_ok.mp h
    obtain ⟨cat', hupdate, h⟩ := bind_eq_ok.mp h
    cases h
    exact ⟨rfl, rfl, rfl, rfl, rfl, le_rfl, fun hcat =>
      putCategory_ok hcat (applyCategoryUpdate_answerable hupdate)⟩
  | deactivate categoryId =>
    obtain ⟨cat, hmem, h⟩ := bind_eq_ok.mp h
    cases h
    exact ⟨rfl, rfl, rfl, rfl, rfl, le_rfl, fun hcat =>
      putCategory_ok hcat (hcat cat (categoryOf_mem hmem))⟩
  | addFile categoryId upload userId =>
    obtain ⟨cat, _, h⟩ := bind_eq_ok.mp h
    unfold addAutoReplyFile at h
    split at h
    · cases h
    split at h
    · cases h
    split at h
    · cases h
    · cases h
      exact ⟨rfl, rfl, rfl, rfl, rfl, Nat.le_succ _, id⟩
  | removeFile categoryId fileId =>
    obtain ⟨cat, _, h⟩ := bind_eq_ok.mp h
    unfold removeAutoReplyFile at h
    split at h
    · cases h
    · cases h
      exact ⟨rfl, rfl, rfl, rfl, rfl, le_rfl, id⟩

/-! ## Events and runs -/

/-- Every event is a chain of commits; a handler that raises makes none. -/
theorem step_effects (hwf : db.Wf) (e : Event) : Effects cfg e.now db.categories db (step cfg db e) := by
  unfold step
  cases happly : e.step.apply cfg db e.now with
  | error _ => exact .refl
  | ok db' =>
    dsimp only
    cases hstep : e.step with
    | create userId data key trackingNo =>
      rw [hstep] at happly
      exact runCreate_effects happly
    | clientCreate client profile data key trackingNo =>
      rw [hstep] at happly
      exact runClientCreate_effects happly
    | call c =>
      rw [hstep] at happly
      obtain ⟨w, hhandle, happly⟩ := bind_eq_ok.mp happly
      cases happly
      obtain ⟨hmem, -, hchange⟩ := handle_change hhandle
      exact .single (.changed hmem hchange)
    | sweep useLock won =>
      rw [hstep] at happly
      cases happly
      exact sweep_effects hwf useLock won
    | catalogue edit =>
      rw [hstep] at happly
      exact .single (catalogueEdit_elsewhere happly).effect
    | people users departments faculties studentGroups =>
      rw [hstep] at happly
      cases happly
      exact .single (.outside rfl rfl rfl rfl rfl le_rfl id)

/-- One event, seen from one request. -/
theorem step_life (cfg : Settings) (hwf : db.Wf) (e : Event) :
    (step cfg db e).Wf ∧ ∀ id, Life.Steps cfg e.now db.categories (db.life? id) ((step cfg db e).life? id) :=
  (step_effects hwf e).life hwf

theorem run_wf (cfg : Settings) (hwf : db.Wf) (es : List Event) : (Runs.run (step cfg) db es).Wf :=
  Runs.run_invariant (fun (db : Db) e (h : db.Wf) => (step_life cfg h e).1) hwf es

/-- What every step in the life of a request keeps, a chain of steps keeps. -/
theorem steps_keep {P : Option Life → Prop} {l l' : Option Life}
    (hstep : ∀ {l l'}, Life.Step cfg now cats l l' → P l → P l')
    (hsteps : Life.Steps cfg now cats l l') (h : P l) : P l' := by
  induction hsteps with
  | refl => exact h
  | tail _ hlast ih => exact hstep hlast ih

/-- What every step in the life of a request keeps holds after every run. -/
theorem run_life (cfg : Settings) {P : Option Life → Prop}
    (hstep : ∀ {now cats l l'}, Life.Step cfg now cats l l' → P l → P l') (hwf : db.Wf) (id : Nat)
    (h : P (db.life? id)) (es : List Event) : P ((Runs.run (step cfg) db es).life? id) := by
  have hinv : ∀ (db : Db) (e : Event), db.Wf ∧ P (db.life? id) →
      (step cfg db e).Wf ∧ P ((step cfg db e).life? id) := by
    intro db e hdb
    obtain ⟨hwf', hlife⟩ := step_life cfg hdb.1 e
    exact ⟨hwf', steps_keep (fun hs => hstep hs) (hlife id) hdb.2⟩
  exact (Runs.run_invariant hinv ⟨hwf, h⟩ es).2

theorem Start.life? {db : Db} (h : Start db) (id : Nat) : db.life? id = none := by
  simp [Db.life?, Db.getRequest, h.requests]

theorem Db.Wf.life?_mem {db : Db} (h : db.Wf) {r : Request} (hr : r ∈ db.requests) :
    db.life? r.id = some (db.lifeOf r) := by
  rw [Db.life?, h.getRequest hr, Option.map_some, Db.lifeOf]

/-- What the tables hold under an id is the life of a request with that id. -/
theorem life?_eq_some {db : Db} {id : Nat} {l : Life} (h : db.life? id = some l) :
    ∃ r ∈ db.requests, r.id = id ∧ l = db.lifeOf r := by
  obtain ⟨r, hr, rfl⟩ := Option.map_eq_some_iff.mp h
  obtain ⟨hmem, hid⟩ := getRequest_mem hr
  exact ⟨r, hmem, hid, by rw [Db.lifeOf, hid]⟩

/-! ## A small office

One student, one member of staff, and a service whose requests go to that
member of staff. -/

/-- Its service. -/
def officeService : RequestCategory where
  id := 4
  parentId := some 3
  name := "Xizmat"
  routing := .generalManager
  assigneeId := some 2

/-- The office before the first request. -/
def office : Db where
  nextId := 10
  users :=
    [{ id := 1, fullName := "Talaba", role := .student,
       studentProfile := some { facultyId := some 1 } },
     { id := 2, fullName := "Xodim", role := .staff }]
  categories := [{ id := 3, parentId := none, name := "Murojaat" }, officeService]

theorem office_start : Start office :=
  ⟨rfl, rfl, rfl, rfl, rfl, fun cat hcat _ hauto => by
    simp only [office, List.mem_cons, List.not_mem_nil, or_false] at hcat
    rcases hcat with rfl | rfl <;> cases hauto⟩

/-- The student files a request, which gets the id 10. -/
def filing (now : Int) : Event :=
  ⟨now, .create 1 { categoryId := 4, title := "Ariza", description := "Matn" } none "REQ-1"⟩

/-- The member of staff answers it. -/
def answering (now : Int) : Event := ⟨now, .call (.answer 2 10 "Javob" [])⟩

/-- The member of staff returns it. -/
def returning (now : Int) : Event :=
  ⟨now, .call (.transition 2 10 { status := "returned", comment := some "Nusxa" })⟩

/-- The student sends it back. -/
def resubmitting (now : Int) : Event := ⟨now, .call (.resubmit 1 10 none)⟩

end Royd
